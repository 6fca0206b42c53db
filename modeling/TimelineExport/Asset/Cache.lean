import TimelineExport.Json.Access
import TimelineExport.Digest.Sha1
import TimelineExport.Error.Basic
import TimelineExport.Net.SourceUrl
import TimelineExport.Text.Path

/-!
# The cache of sources

The files of the sources that an export uses are entries of a cache, in the order in which they
were last acquired. An entry is leased as long as it is in use. The cache has a budget of
entries and one of bytes; when a new entry exceeds one of them, entries without leases are
evicted, the one not acquired for the longest time first, and if that does not help the new entry
is dropped again.

The operations here change the cache only. They name the entries that they drop, so that the
files of those that the cache owns can be removed.
-/

namespace TimelineExport

/-- A source whose file is at hand. -/
structure CachedAsset where
  /-- The source as the timeline names it. -/
  key : String
  path : String
  size : Nat
  /-- Whether the cache made the file and has to remove it. -/
  owned : Bool
  /-- Whether the file has sound, if it was probed. -/
  hasAudio : Option Bool := none
  leases : Nat := 0
  deriving DecidableEq, Repr

/-- The budgets of a cache. -/
structure CacheLimits where
  entries : Int := 256
  bytes : Int := 8589934592
  deriving DecidableEq, Repr

/-- Reads the budgets of a cache; what is not given has its usual value. -/
def CacheLimits.ofJson (v : Json) : CacheLimits :=
  { entries := v.getOr "max_entries" Json.asInt 256
    bytes := v.getOr "max_bytes" Json.asInt 8589934592 }

/-- A cache. The first entry is the one that was not acquired for the longest time. -/
structure AssetCache where
  directory : String
  limits : CacheLimits := {}
  entries : List CachedAsset := []
  hits : Nat := 0
  misses : Nat := 0
  evictions : Nat := 0
  deriving DecidableEq, Repr

namespace AssetCache

/-- The path under which a source is downloaded. It depends on nothing but the source, and keeps
its extension. -/
def pathFor (c : AssetCache) (key : String) : Except UrlFault String := do
  let url ← SourceUrl.read key
  let digest := (sha1Text key).toList.take 16
  let suffix := (pathSuffix url.path).toList.take 8
  return joinPath c.directory (String.ofList (digest ++ suffix))

/-- The bytes of all entries. -/
def totalBytes (c : AssetCache) : Nat := c.entries.foldr (fun e total => e.size + total) 0

/-- The entry of a source. -/
def entry? (c : AssetCache) (key : String) : Option CachedAsset := c.entries.find? (·.key = key)

/-- Whether one of the budgets is exceeded. -/
def isOver (c : AssetCache) : Bool :=
  c.limits.entries < c.entries.length || c.limits.bytes < c.totalBytes

/-- Removes the entry of a source. -/
def remove (c : AssetCache) (key : String) : AssetCache :=
  { c with entries := c.entries.filter (·.key ≠ key) }

/-- Evicts entries without leases, in the given order and other than the one to keep, until the
cache is within its budgets. The evicted entries are named. -/
def evict (keep : String) : List CachedAsset → AssetCache → AssetCache × List CachedAsset
  | [], c => (c, [])
  | e :: rest, c =>
    if !c.isOver then (c, [])
    else if e.key = keep ∨ 0 < e.leases then evict keep rest c
    else
      let (c, dropped) := evict keep rest { c.remove e.key with evictions := c.evictions + 1 }
      (c, e :: dropped)

/-- How far a cache is from its budgets, as a message tells it. -/
def usage (c : AssetCache) : String :=
  toString c.entries.length ++ "/" ++ toString c.limits.entries ++ " entries, " ++
    toString c.totalBytes ++ "/" ++ toString c.limits.bytes ++ " bytes"

/-- Takes in a new entry. The result says why it was dropped again, if it was, and which entries
were dropped. -/
def insert (c : AssetCache) (e : CachedAsset) :
    AssetCache × Option ExportError × List CachedAsset :=
  let c := { c with entries := c.entries ++ [e] }
  let (c, dropped) := evict e.key c.entries c
  if c.isOver then (c.remove e.key, some (.cacheFull e.key c.usage), dropped ++ [e])
  else (c, none, dropped)

/-- Leases the entry of a source, which thereby becomes the last one. -/
def lease (c : AssetCache) (key : String) : AssetCache :=
  match c.entry? key with
  | none => c
  | some e =>
    { c with entries := c.entries.filter (·.key ≠ key) ++ [{ e with leases := e.leases + 1 }] }

/-- Gives back one lease of a source. -/
def release (c : AssetCache) (key : String) : AssetCache :=
  { c with entries := c.entries.map fun e =>
      if e.key = key then { e with leases := e.leases - 1 } else e }

end AssetCache

end TimelineExport
