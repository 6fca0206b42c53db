import Mathlib.Data.List.Induction
import TimelineExport.Proofs.Asset.Lease

/-!
# The history of a cache that callers share

What an event does is said once and exactly (`CacheScene.Does`): who may be served, what is counted,
which entries stay and which result a caller has. From the states before and after an event it can
be seen whether a caller has got its turn, has begun to load, or was handed an entry; `observed`
collects what is seen along a run. What is true of a scene is then compared with what has happened
so far (`CacheScene.Sound.run_does`).
-/

namespace TimelineExport

variable {γ : Type}

/-! ### Callers -/

namespace CallerState

/-- Whether a caller waits for its turn. -/
def isWaiting : CallerState → Bool
  | waiting => true
  | _ => false

/-- Whether a caller loads its source. -/
def isLoading : CallerState → Bool
  | loading => true
  | _ => false

/-- Whether a caller was handed an asset. -/
def hasAsset : CallerState → Bool
  | done (.ok _) => true
  | _ => false

end CallerState

/-- The caller to whom something happens at an event. -/
def CacheEvent.caller? : CacheEvent γ → Option Nat
  | serve id | finish id _ => some id
  | _ => none

namespace CacheScene

variable {s s' : CacheScene γ} {c : CacheCaller} {event : CacheEvent γ} {e : CachedAsset}
  {state : CallerState}

/-! ### What an event does -/

/-- A step of a scene, exactly but for the files. -/
inductive Does (s : CacheScene γ) : CacheEvent γ → CacheScene γ → Prop where
  | idle {event : CacheEvent γ} (hnone : s.brings event = none) : Does s event s
  | arrive {id : Nat} {key : String} (hnew : s.caller? id = none) :
    Does s (.arrive id key) { s with callers := s.callers ++ [{ id, key }] }
  /-- A caller finds its source in the cache. -/
  | hit {c : CacheCaller} {e : CachedAsset} (hid : s.caller? c.id = some c)
    (hwaiting : c.state = .waiting) (hturn : s.isTurn c = true)
    (he : s.cache.entry? c.key = some e) :
    Does s (.serve c.id)
      ({ s with cache := { s.cache with hits := s.cache.hits + 1 }.lease c.key }.setCaller c.id
        (.done (.ok { e with leases := e.leases + 1 })))
  /-- A caller does not find its source, and begins to load it if it has a path. -/
  | miss {c : CacheCaller} {state : CallerState} (hid : s.caller? c.id = some c)
    (hwaiting : c.state = .waiting) (hturn : s.isTurn c = true)
    (hvacant : s.cache.IsVacant c.key)
    (hstate : state = .loading ∨
      ∃ fault, s.cache.pathFor c.key = .error fault ∧ state = .done (.error (.url fault))) :
    Does s (.serve c.id)
      ({ s with cache := { s.cache with misses := s.cache.misses + 1 } }.setCaller c.id state)
  /-- A loader fails. -/
  | fail {c : CacheCaller} (fault : AssetFault) (hid : s.caller? c.id = some c)
    (hloading : c.state = .loading) :
    Does s (.finish c.id (.error fault)) (s.setCaller c.id (.done (.error fault)))
  /-- There is no room for what was loaded. -/
  | refuse {c : CacheCaller} {loaded : LoadedAsset γ} (files : FileTree γ)
    (hid : s.caller? c.id = some c) (hloading : c.state = .loading)
    (hrefused : s.cache.IsRefused (loaded.entry c.key)) :
    Does s (.finish c.id (.ok loaded))
      ({ s with cache := (s.cache.insert (loaded.entry c.key)).1, files }.setCaller c.id
        (.done (.error (.resolution
          (.cacheFull c.key (s.cache.makeRoom (loaded.entry c.key)).1.usage)))))
  /-- What was loaded is taken in. -/
  | takeIn {c : CacheCaller} {loaded : LoadedAsset γ} (files : FileTree γ)
    (hid : s.caller? c.id = some c) (hloading : c.state = .loading)
    (htaken : ¬ s.cache.IsRefused (loaded.entry c.key)) :
    Does s (.finish c.id (.ok loaded))
      ({ s with cache := (s.cache.insert (loaded.entry c.key)).1.lease c.key, files }.setCaller c.id
        (.done (.ok { loaded.entry c.key with leases := 1 })))
  | release (key : String) : Does s (.release key) { s with cache := s.cache.release key }
  | close (files : FileTree γ) :
    Does s .close { s with cache := { s.cache with entries := [] }, files }

/-- A leased entry is handed out as it is in the cache from then on. -/
theorem handOut_eq (he : s.cache.entry? c.key = some e) :
    s.handOut c = { s with cache := s.cache.lease c.key }.setCaller c.id
      (.done (.ok { e with leases := e.leases + 1 })) := by
  have hleased := AssetCache.entry?_lease he c.key
  rw [if_pos rfl] at hleased
  simp only [handOut, hleased]

theorem serve_hit (he : s.cache.entry? c.key = some e) :
    s.serve c =
      { s with cache := { s.cache with hits := s.cache.hits + 1 }.lease c.key }.setCaller c.id
        (.done (.ok { e with leases := e.leases + 1 })) := by
  unfold serve
  rw [he]
  exact handOut_eq (s := { s with cache := { s.cache with hits := s.cache.hits + 1 } }) he

theorem does_serve (hid : s.caller? c.id = some c) (hwaiting : c.state = .waiting)
    (hturn : s.isTurn c = true) : Does s (.serve c.id) (s.serve c) := by
  cases he : s.cache.entry? c.key with
  | some e =>
    rw [serve_hit he]
    exact .hit hid hwaiting hturn he
  | none =>
    unfold serve
    rw [he]
    dsimp only
    split
    · next fault hpath => exact .miss hid hwaiting hturn he (.inr ⟨fault, hpath, rfl⟩)
    · exact .miss hid hwaiting hturn he (.inl rfl)

theorem finish_refused {loaded : LoadedAsset γ}
    (hrefused : s.cache.IsRefused (loaded.entry c.key)) :
    ∃ files, s.finish c (.ok loaded) =
      { s with cache := (s.cache.insert (loaded.entry c.key)).1, files }.setCaller c.id
        (.done (.error (.resolution
          (.cacheFull c.key (s.cache.makeRoom (loaded.entry c.key)).1.usage)))) := by
  refine ⟨(s.takingIn c.key loaded).files, ?_⟩
  unfold finish takingIn AssetCache.dropped
  dsimp only
  rw [← LoadedAsset.entry, AssetCache.insert_of_isRefused hrefused]
  rfl

theorem Sound.finish_taken (h : s.Sound) (hid : s.caller? c.id = some c)
    (hloading : c.state = .loading) {loaded : LoadedAsset γ}
    (htaken : ¬ s.cache.IsRefused (loaded.entry c.key)) :
    ∃ files, s.finish c (.ok loaded) =
      { s with cache := (s.cache.insert (loaded.entry c.key)).1.lease c.key, files }.setCaller c.id
        (.done (.ok { loaded.entry c.key with leases := 1 })) := by
  have hkeys := AssetCache.nodup_insert (e := loaded.entry c.key) h.keys
    (h.vacant c (of_caller?_eq_some hid).1 hloading)
  have he := AssetCache.entry?_of_mem hkeys (AssetCache.mem_insert_of_not_isRefused htaken)
  rw [finish_of_not_isRefused htaken, handOut_eq (s := s.takingIn c.key loaded) he]
  exact ⟨_, rfl⟩

theorem does_finish (h : s.Sound) (hid : s.caller? c.id = some c) (hloading : c.state = .loading)
    (outcome : Except AssetFault (LoadedAsset γ)) :
    Does s (.finish c.id outcome) (s.finish c outcome) := by
  cases outcome with
  | error fault => exact .fail fault hid hloading
  | ok loaded =>
    by_cases hrefused : s.cache.IsRefused (loaded.entry c.key)
    · obtain ⟨files, heq⟩ := finish_refused hrefused
      rw [heq]
      exact .refuse files hid hloading hrefused
    · obtain ⟨files, heq⟩ := h.finish_taken hid hloading hrefused
      rw [heq]
      exact .takeIn files hid hloading hrefused

theorem step_serve (hid : s.caller? c.id = some c) (hwaiting : c.state = .waiting)
    (hturn : s.isTurn c = true) : s.step (.serve c.id) = s.serve c := by
  simp only [CacheScene.step, hid, hwaiting, hturn, if_true]

theorem step_finish (hid : s.caller? c.id = some c) (hloading : c.state = .loading)
    (outcome : Except AssetFault (LoadedAsset γ)) :
    s.step (.finish c.id outcome) = s.finish c outcome := by
  simp only [CacheScene.step, hid, hloading]

/-- The result of a caller that is done. -/
theorem result?_setCaller (hid : s.caller? c.id = some c) {t : CacheScene γ}
    (hcallers : t.callers = s.callers) (result : Except AssetFault CachedAsset) :
    (t.setCaller c.id (.done result)).result? c.id = some result := by
  have ht : t.caller? c.id = some c := by
    unfold caller? at hid ⊢
    rw [hcallers, hid]
  unfold result?
  rw [caller?_setCaller, ht, Option.map_some]

/-- **What an event does.** -/
theorem Sound.does_step (h : s.Sound) (event : CacheEvent γ) : Does s event (s.step event) := by
  cases event with
  | arrive id key =>
    unfold CacheScene.step
    dsimp only
    split
    · exact .idle rfl
    · next hnew => exact .arrive (Option.not_isSome_iff_eq_none.mp hnew)
  | serve id =>
    unfold CacheScene.step
    dsimp only
    split
    · next c hid =>
      obtain ⟨-, rfl⟩ := of_caller?_eq_some hid
      split
      · next hwaiting =>
        split
        · next hturn => exact does_serve hid hwaiting hturn
        · exact .idle rfl
      · exact .idle rfl
    · exact .idle rfl
  | finish id outcome =>
    unfold CacheScene.step
    dsimp only
    split
    · next c hid =>
      obtain ⟨-, rfl⟩ := of_caller?_eq_some hid
      split
      · next hloading => exact does_finish h hid hloading outcome
      · next hstate =>
        refine .idle (brings_finish_eq_none fun c' hc' => ?_)
        cases hid.symm.trans hc'
        exact hstate
    · next hid =>
      exact .idle (brings_finish_eq_none fun c' hc' => nomatch hid.symm.trans hc')
  | release key => exact .release key
  | close => exact .close _

theorem Sound.step_close (h : s.Sound) : (s.step .close).Sound where
  keys := List.nodup_nil
  ids := h.ids
  vacant _ _ _ := rfl
  alone := h.alone

/-! ### What is seen of an event -/

/-- The source of a caller that comes into a kind of state at an event. -/
def becomes (kind : CallerState → Bool) (s : CacheScene γ) (event : CacheEvent γ) :
    Option String :=
  match event.caller?.bind s.caller?, event.caller?.bind (s.step event).caller? with
  | some before, some after =>
    if kind after.state && !kind before.state then some after.key else none
  | _, _ => none

/-- The source that a caller begins to load at an event. -/
def startsLoader : CacheScene γ → CacheEvent γ → Option String := becomes CallerState.isLoading

/-- The source whose entry is handed to a caller at an event. -/
def handsOut : CacheScene γ → CacheEvent γ → Option String := becomes CallerState.hasAsset

theorem becomes_eq {kind : CallerState → Bool} (hactor : event.caller? = some c.id)
    (hid : s.caller? c.id = some c)
    (hcallers : (s.step event).callers = (s.setCaller c.id state).callers) :
    s.becomes kind event = if kind state && !kind c.state then some c.key else none := by
  have hafter : (s.step event).caller? c.id = some { c with state } := by
    have hset := caller?_setCaller s c.id state
    rw [hid, Option.map_some] at hset
    unfold caller? at hset ⊢
    rw [hcallers, hset]
  unfold becomes
  rw [hactor, Option.bind_some, Option.bind_some, hid, hafter]

theorem becomes_of_caller?_eq_none {kind : CallerState → Bool} (hactor : event.caller? = none) :
    s.becomes kind event = none := by
  unfold becomes
  rw [hactor]
  rfl

theorem becomes_of_step_eq {kind : CallerState → Bool} (hstep : s.step event = s) :
    s.becomes kind event = none := by
  unfold becomes
  rw [hstep]
  split
  · next before after hbefore hafter =>
    cases hbefore.symm.trans hafter
    rw [Bool.and_not_self]
    rfl
  · rfl

/-! ### What is seen along a run -/

/-- What is seen at the events of a run, one after another. -/
def observed {β : Type} (look : CacheScene γ → CacheEvent γ → Option β) :
    CacheScene γ → List (CacheEvent γ) → List β
  | _, [] => []
  | s, event :: events => (look s event).toList ++ observed look (s.step event) events

theorem observed_concat {β : Type} (look : CacheScene γ → CacheEvent γ → Option β)
    (s : CacheScene γ) (events : List (CacheEvent γ)) (event : CacheEvent γ) :
    s.observed look (events ++ [event]) =
      s.observed look events ++ (look (s.run events) event).toList := by
  induction events generalizing s with
  | nil => exact List.append_nil _
  | cons first events ih =>
    rw [List.cons_append, observed, observed, ih, List.append_assoc]
    rfl

/-- **Along a run**, what each event keeps in view of what happened before it holds in the end. -/
theorem Sound.run_does (h : s.Sound) {P : List (CacheEvent γ) → CacheScene γ → Prop}
    (events : List (CacheEvent γ)) (hstart : P [] s)
    (hstep : ∀ (before : List (CacheEvent γ)) (event : CacheEvent γ), event ∈ events →
      (s.run before).Sound → P before (s.run before) →
      (s.run before).Does event ((s.run before).step event) →
      P (before ++ [event]) ((s.run before).step event)) :
    (s.run events).Sound ∧ P events (s.run events) := by
  induction events using List.reverseRecOn with
  | nil => exact ⟨h, hstart⟩
  | append_singleton events event ih =>
    obtain ⟨hsound, hP⟩ := ih fun before event' hmem =>
      hstep before event' (List.mem_append_left _ hmem)
    have hrun : s.run (events ++ [event]) = (s.run events).step event := run_append s events [event]
    rw [hrun]
    refine ⟨?_, hstep events event (List.mem_append_right _ (List.mem_singleton_self event)) hsound
      hP (hsound.does_step event)⟩
    by_cases hopen : event = .close
    · rw [hopen]
      exact hsound.step_close
    · exact hsound.step hopen

end CacheScene

end TimelineExport
