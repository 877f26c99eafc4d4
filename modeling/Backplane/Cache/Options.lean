import Backplane.Config

/-!
# Cache options

An in-memory cache may bound its number of entries. A hybrid cache names the topic its
invalidations travel on, may bound its local layer, and may give values copied from the
shared layer without an expiry a local time to live.
-/

namespace Backplane.Cache

/-- The settings of an in-memory cache. -/
structure MemoryOptions where
  maxItems : Option Nat
  deriving Repr, Inhabited

/-- Options read from `{prefix}.max_items`. -/
def MemoryOptions.fromConfig (c : Config) (pre : String) : MemoryOptions :=
  ⟨c.getSize (pre ++ ".max_items")⟩

/-- The topic of cache invalidations. -/
def invalidationTopic : String := "dog.cache.invalidate"

/-- The settings of a hybrid cache. -/
structure HybridOptions where
  topic : String
  localMaxItems : Option Nat
  localTtl : Option Duration
  deriving Repr, Inhabited

/-- Invalidations on `invalidationTopic`, no bound, no local time to live. -/
def HybridOptions.default : HybridOptions := ⟨invalidationTopic, none, none⟩

/-- Options read from `{prefix}.topic`, `{prefix}.local_max_items` and `{prefix}.local_ttl_ms`. -/
def HybridOptions.fromConfig (c : Config) (pre : String) : HybridOptions :=
  ⟨(c.get? (pre ++ ".topic")).getD invalidationTopic, c.getSize (pre ++ ".local_max_items"),
    c.getMillis (pre ++ ".local_ttl_ms")⟩

end Backplane.Cache
