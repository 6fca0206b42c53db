import TimelineExport.Asset.Cache
import TimelineExport.Asset.Fault
import TimelineExport.Files.Tree

/-!
# Acquiring sources side by side

Several callers acquire sources from one cache at the same time. Those that want the same source
take turns in the order in which they came: the first one loads it, and the others find it in
the cache. Callers of different sources do not wait for each other, and a caller that loads is
the only one that is ever suspended.

`CacheScene.step` says what happens at each event. An event that cannot happen changes nothing.
-/

namespace TimelineExport

/-- What a loader has found or made: the path and size of a file, whether the cache has to remove
it, and the content that was written there. -/
structure LoadedAsset (γ : Type) where
  path : String
  size : Nat
  owned : Bool
  hasAudio : Option Bool := none
  written : Option γ := none

/-- How far a caller is. -/
inductive CallerState where
  | waiting
  | loading
  | done (result : Except AssetFault CachedAsset)

/-- Someone who acquires a source. -/
structure CacheCaller where
  id : Nat
  key : String
  state : CallerState := .waiting

/-- What happens around a cache. -/
inductive CacheEvent (γ : Type) where
  | arrive (id : Nat) (key : String)
  /-- It is a caller's turn. -/
  | serve (id : Nat)
  /-- The loader of a caller has ended. -/
  | finish (id : Nat) (outcome : Except AssetFault (LoadedAsset γ))
  | release (key : String)
  | close

/-- A cache, the files around it, and its callers in the order in which they came. Paths are
seen from `cwd`. -/
structure CacheScene (γ : Type) where
  cache : AssetCache
  files : FileTree γ
  cwd : Place := []
  callers : List CacheCaller := []

namespace CacheScene

variable {γ : Type}

/-- A new cache, whose directory is made. -/
def inDirectory (cwd : Place) (files : FileTree γ) (directory : String) (limits : CacheLimits) :
    CacheScene γ :=
  { cache := { directory, limits }, cwd
    files := (files.makeDirectories (resolvePath cwd directory)).toOption.getD files }

/-- A caller. -/
def caller? (s : CacheScene γ) (id : Nat) : Option CacheCaller := s.callers.find? (·.id = id)

/-- Sets how far a caller is. -/
def setCaller (s : CacheScene γ) (id : Nat) (state : CallerState) : CacheScene γ :=
  { s with callers := s.callers.map fun c => if c.id = id then { c with state } else c }

/-- Removes the files of dropped entries, as far as the cache owns them. -/
def removeFiles (s : CacheScene γ) (dropped : List CachedAsset) : CacheScene γ :=
  { s with files := dropped.foldl (fun files e =>
      let place := resolvePath s.cwd e.path
      if e.owned && files.isFile place then files.erase place else files) s.files }

/-- Whether it is a caller's turn: no other one loads the source or has waited for longer. -/
def isTurn (s : CacheScene γ) (c : CacheCaller) : Bool :=
  let others := s.callers.filter (·.key = c.key)
  (others.all fun o => match o.state with
    | .loading => false
    | _ => true) &&
  ((others.takeWhile (·.id ≠ c.id)).all fun o => match o.state with
    | .waiting => false
    | _ => true)

/-- Leases the entry of a caller's source and hands it out. -/
def handOut (s : CacheScene γ) (c : CacheCaller) : CacheScene γ :=
  let s := { s with cache := s.cache.lease c.key }
  match s.cache.entry? c.key with
  | some e => s.setCaller c.id (.done (.ok e))
  | none => s

/-- Serves a caller whose turn it is: from the cache, or by beginning to load. -/
def serve (s : CacheScene γ) (c : CacheCaller) : CacheScene γ :=
  match s.cache.entry? c.key with
  | some _ => { s with cache := { s.cache with hits := s.cache.hits + 1 } }.handOut c
  | none =>
    let s := { s with cache := { s.cache with misses := s.cache.misses + 1 } }
    match s.cache.pathFor c.key with
    | .error fault => s.setCaller c.id (.done (.error (.url fault)))
    | .ok _ => s.setCaller c.id .loading

/-- Takes in what a caller has loaded. -/
def finish (s : CacheScene γ) (c : CacheCaller) (outcome : Except AssetFault (LoadedAsset γ)) :
    CacheScene γ :=
  match outcome with
  | .error fault => s.setCaller c.id (.done (.error fault))
  | .ok loaded =>
    let files := match loaded.written with
      | some content => s.files.put (resolvePath s.cwd loaded.path) (.file content)
      | none => s.files
    let (cache, refused, dropped) := s.cache.insert
      { key := c.key, path := loaded.path, size := loaded.size, owned := loaded.owned
        hasAudio := loaded.hasAudio }
    let s := { s with cache, files }.removeFiles dropped
    match refused with
    | some error => s.setCaller c.id (.done (.error (.resolution error)))
    | none => s.handOut c

/-- Drops all entries. -/
def close (s : CacheScene γ) : CacheScene γ :=
  { s with cache := { s.cache with entries := [] } }.removeFiles s.cache.entries

/-- What happens at an event. -/
def step (s : CacheScene γ) : CacheEvent γ → CacheScene γ
  | .arrive id key =>
    if (s.caller? id).isSome then s else { s with callers := s.callers ++ [{ id, key }] }
  | .serve id =>
    match s.caller? id with
    | some c =>
      match c.state with
      | .waiting => if s.isTurn c then s.serve c else s
      | _ => s
    | none => s
  | .finish id outcome =>
    match s.caller? id with
    | some c =>
      match c.state with
      | .loading => s.finish c outcome
      | _ => s
    | none => s
  | .release key => { s with cache := s.cache.release key }
  | .close => s.close

/-- The scene after a list of events. -/
def run (s : CacheScene γ) (events : List (CacheEvent γ)) : CacheScene γ := events.foldl step s

/-- What a caller was handed out. -/
def result? (s : CacheScene γ) (id : Nat) : Option (Except AssetFault CachedAsset) :=
  match s.caller? id with
  | some ⟨_, _, .done result⟩ => some result
  | _ => none

/-- The caller that is to be woken when a caller of the same source is done: the first one that
waits. -/
def next? (s : CacheScene γ) (key : String) : Option Nat :=
  (s.callers.find? fun c => c.key = key && match c.state with
    | .waiting => true
    | _ => false).map (·.id)

/-- Lets callers take turns, each loader giving way once. A caller goes to the end of the queue
when it begins to load and when it is woken. A caller has at most two turns after it came, so a
fuel of three for each is never used up. -/
def takeTurns (load : String → String → Except AssetFault (LoadedAsset γ)) (keys : List String) :
    (fuel : Nat) → (queue : List Nat) → CacheScene γ → CacheScene γ
  | 0, _, s => s
  | _, [], s => s
  | fuel + 1, id :: queue, s =>
    let key := keys.getD id ""
    let s := match s.caller? id with
      | some ⟨_, _, .loading⟩ =>
        s.step (.finish id (match s.cache.pathFor key with
          | .ok path => load key path
          | .error fault => .error (.url fault)))
      | _ => (s.step (.arrive id key)).step (.serve id)
    let queue := match s.caller? id with
      | some ⟨_, _, .loading⟩ => queue ++ [id]
      | some ⟨_, _, .done _⟩ => queue ++ (s.next? key).toList
      | _ => queue
    takeTurns load keys fuel queue s

/-- Acquires sources side by side, and gives what each caller was handed out. -/
def acquireAll (load : String → String → Except AssetFault (LoadedAsset γ)) (keys : List String)
    (s : CacheScene γ) : List (Except AssetFault CachedAsset) × CacheScene γ :=
  let ids := List.range keys.length
  let s := takeTurns load keys (3 * keys.length) ids { s with callers := [] }
  (ids.filterMap s.result?, s)

end CacheScene

end TimelineExport
