import TimelineExport.Asset.Load
import TimelineExport.Export.Settings
import TimelineExport.Timeline.Element

/-!
# Resolving a timeline

Before an export is rendered, every source becomes a local file: each element that has one is
replaced by a copy whose source is the path of the file. Under the strict policy a source that
cannot be had ends the export; under the lenient one the elements that need it are dropped, with
a warning for each. A failure of any other sort ends the export under both.

All sources are acquired from one cache, side by side. The results are joined back to the
elements by the elements' ids, and each id holds a lease.
-/

namespace TimelineExport

/-- A timeline whose sources are local files. -/
structure ResolvedTimeline (α : Type) where
  elements : List (Element α) := []
  /-- For each path that was probed, whether the file has sound. -/
  audioSources : List (String × Bool) := []
  dropped : List String := []
  warnings : List String := []

/-- Which source each id holds a lease of. -/
abbrev Leases := List (String × String)

/-- What became of the source of each id. -/
abbrev SourceOutcomes := List (String × Except AssetFault CachedAsset)

/-- Sets a value under a name, which keeps its place if it is there. -/
def setEntry {β : Type} (entries : List (String × β)) (name : String) (value : β) :
    List (String × β) :=
  if entries.any (·.1 = name) then
    entries.map fun e => if e.1 = name then (name, value) else e
  else entries ++ [(name, value)]

section
variable {α : Type}

/-- The source of an element that has one. -/
def Element.usedSource (e : Element α) : Option String := nonEmpty e.assetSource

/-- The ids and sources of the elements that have one. -/
def pendingSources (elements : List (Element α)) : List (String × String) :=
  elements.filterMap fun e => e.usedSource.map fun source => (e.id, source)

/-- The sources that are probed: those of elements that may have sound. -/
def probedSources (elements : List (Element α)) : List String :=
  elements.filterMap fun e => if e.kind.hasSound then e.usedSource else none

/-- The results by id; the last one of an id counts. -/
def outcomesById (ids : List String) (results : List (Except AssetFault CachedAsset)) :
    SourceOutcomes :=
  (ids.zip results).foldl (fun out r => setEntry out r.1 r.2) []

/-- The leases that the results hold. -/
def leasesOf (outcomes : SourceOutcomes) : Leases :=
  outcomes.filterMap fun o =>
    match o.2 with
    | .ok asset => some (o.1, asset.key)
    | .error _ => none

/-- Joins the result of an element's source to the timeline. -/
def joinElement (policy : AssetPolicy) (outcomes : SourceOutcomes) (r : ResolvedTimeline α)
    (e : Element α) : Except AssetFault (ResolvedTimeline α) :=
  match outcomes.lookup e.id with
  | none => .ok { r with elements := r.elements ++ [e] }
  | some (.ok asset) =>
    .ok { r with
      elements := r.elements ++ [{ e with source := some asset.path }]
      audioSources := match asset.hasAudio with
        | some sound => setEntry r.audioSources asset.path sound
        | none => r.audioSources }
  | some (.error fault) =>
    match policy, fault.resolution? with
    | .lenient, some error =>
      .ok { r with
        dropped := r.dropped ++ [e.id]
        warnings := r.warnings ++
          ["Dropped " ++ e.kind.name ++ " element " ++ e.id ++ ": " ++ error.message] }
    | _, _ => .error fault

/-- Joins all results to the timeline. -/
def joinElements (policy : AssetPolicy) (outcomes : SourceOutcomes)
    (elements : List (Element α)) : Except AssetFault (ResolvedTimeline α) :=
  elements.foldlM (joinElement policy outcomes) {}

end

/-- Gives back the leases of ids, one after another. At an id that holds no lease this ends, and
the id is named. -/
def giveBack : List String → AssetCache → Leases → AssetCache × Leases × Option String
  | [], cache, leases => (cache, leases, none)
  | id :: ids, cache, leases =>
    match leases.lookup id with
    | some key => giveBack ids (cache.release key) (leases.filter (·.1 ≠ id))
    | none => (cache, leases, some id)

/-- Gives back the leases of some ids, or of all. Ids that hold no lease at first are passed over;
an id that is listed twice holds none the second time. -/
def releaseLeases (cache : AssetCache) (leases : Leases) (ids : Option (List String)) :
    AssetCache × Leases × Option String :=
  let listed := match ids with
    | some ids => ids.filter fun id => (leases.lookup id).isSome
    | none => leases.map (·.1)
  giveBack listed cache leases

/-- What became of a resolution: the timeline with its leases, or the failure. When it failed,
all leases have been given back. -/
def concludeResolution {α γ : Type} (policy : AssetPolicy) (elements : List (Element α))
    (results : List (Except AssetFault CachedAsset)) (s : CacheScene γ) :
    Except AssetFault (ResolvedTimeline α × Leases) × CacheScene γ :=
  let outcomes := outcomesById ((pendingSources elements).map (·.1)) results
  let leases := leasesOf outcomes
  match joinElements policy outcomes elements with
  | .ok r => (.ok (r, leases), s)
  | .error fault =>
    (.error fault, { s with cache := (releaseLeases s.cache leases none).1 })

section
variable {γ : Type} [FileContent γ]

/-- Acquires sources one after another. -/
def acquireInOrder (options : LoadOptions) (probed : List String) :
    List (Nat × String) → CacheScene γ → Outside γ → CacheScene γ × Outside γ
  | [], s, o => (s, o)
  | (id, key) :: rest, s, o =>
    let s := (s.step (.arrive id key)).step (.serve id)
    match s.caller? id, s.cache.pathFor key with
    | some ⟨_, _, .loading⟩, .ok target =>
      let (outcome, o) := loadSource options s.files (probed.contains key) key target o
      acquireInOrder options probed rest (s.step (.finish id outcome)) o
    | _, _ => acquireInOrder options probed rest s o

/-- Resolves a timeline: the sources are loaded in the order of the elements. -/
def resolveTimeline {α : Type} (options : LoadOptions) (policy : AssetPolicy)
    (elements : List (Element α)) (s : CacheScene γ) (o : Outside γ) :
    Except AssetFault (ResolvedTimeline α × Leases) × CacheScene γ × Outside γ :=
  let keys := (pendingSources elements).map (·.2)
  let (s, o) := acquireInOrder options (probedSources elements)
    ((List.range keys.length).zip keys) { s with callers := [] } o
  let (result, s) := concludeResolution policy elements
    ((List.range keys.length).filterMap s.result?) s
  (result, s, o)

end

end TimelineExport
