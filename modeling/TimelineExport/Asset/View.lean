import TimelineExport.Asset.Acquire
import TimelineExport.Json.Value

/-!
# Caches as JSON

The entries of a cache and its counters as JSON values.
-/

namespace TimelineExport

/-- An entry as an object. -/
def CachedAsset.toJson (e : CachedAsset) : Json :=
  .object [("key", .text e.key), ("path", .text e.path), ("size_bytes", .int e.size),
    ("owned", .bool e.owned), ("has_audio", .ofOption .bool e.hasAudio), ("leases", .int e.leases)]

/-- An entry as a list of its key, path, size and leases, whether it is owned, and whether it has
sound. -/
def CachedAsset.row (e : CachedAsset) : Json :=
  .array [.text e.key, .text e.path, .int e.size, .int e.leases, .bool e.owned,
    .ofOption .bool e.hasAudio]

/-- The hits, misses and evictions of a cache. -/
def AssetCache.counts (c : AssetCache) : Json :=
  .ofList (fun n : Nat => .int n) [c.hits, c.misses, c.evictions]

/-- The files in a cache's directory, in order. -/
def CacheScene.listing {γ : Type} (s : CacheScene γ) : List String :=
  ((s.files.filesBelow (resolvePath s.cwd s.cache.directory)).map ("/".intercalate ·)).mergeSort
    fun a b => a ≤ b

end TimelineExport
