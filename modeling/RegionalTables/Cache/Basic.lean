import RegionalTables.Cache.Entry

/-! Caches: entries under keys. A later entry replaces an earlier one of the same key. -/
namespace RegionalTables

inductive CacheError where
  /-- A stored text that is no entry. -/
  | unreadable
  | database (reason : String)
  | directory (reason : String)
  | noDirectory
  deriving DecidableEq

def CacheError.message : CacheError → String
  | .unreadable => "JSON serialization error: not a cache entry"
  | .database reason => "SQLite error: " ++ reason
  | .directory reason => "IO error: " ++ reason
  | .noDirectory => "Failed to determine cache directory"

class Cache (σ : Type) where
  get : σ → String → Except CacheError (Option CacheEntry)
  set : σ → String → CacheEntry → σ

/-- Where there may be no cache, nothing is kept and nothing found. -/
instance [Cache σ] : Cache (Option σ) where
  get cache key :=
    match cache with
    | some cache => Cache.get cache key
    | none => .ok none
  set cache key e := cache.map (Cache.set · key e)

/-- One of two sorts of cache. -/
instance [Cache σ] [Cache τ] : Cache (σ ⊕ τ) where
  get cache key :=
    match cache with
    | .inl cache => Cache.get cache key
    | .inr cache => Cache.get cache key
  set cache key e :=
    match cache with
    | .inl cache => .inl (Cache.set cache key e)
    | .inr cache => .inr (Cache.set cache key e)

/-- Entries held as they are. -/
structure MemoryCache where
  entries : SortedMap String CacheEntry

namespace MemoryCache

def empty : MemoryCache := ⟨.empty⟩

instance : Inhabited MemoryCache := ⟨empty⟩

instance : Cache MemoryCache where
  get cache key := .ok (cache.entries.find? key)
  set cache key e := ⟨cache.entries.insert key e⟩

def size (cache : MemoryCache) : Nat := cache.entries.size

end MemoryCache

/-- A cache whose keys are set apart by the name of an index, so that many can share one store. -/
structure IndexedCache (σ : Type) where
  index : String
  inner : σ

namespace IndexedCache

def keyUnder (index key : String) : String := index ++ "/" ++ key

instance [Cache σ] : Cache (IndexedCache σ) where
  get cache key := Cache.get cache.inner (keyUnder cache.index key)
  set cache key e := { cache with inner := Cache.set cache.inner (keyUnder cache.index key) e }

end IndexedCache

end RegionalTables
