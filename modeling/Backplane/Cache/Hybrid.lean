import Backplane.Cache.Options
import Backplane.Json.Value

/-!
# Hybrid caches

A hybrid cache reads through a local in-memory layer to an optional shared cache, and keeps
the local layers of several processes coherent by announcing every change on a topic of the
bus. A cache ignores its own announcements; another's makes it drop the named keys from its
local layer, or all of them.

A value found only in the shared layer is copied into the local one, with the time the shared
value has left to live, or else with the local time to live of the options.
-/

namespace Backplane.Cache

/-- The state of a hybrid cache: its origin id, its local layer and shared cache (indices of
the host's caches), its options and counters, and its subscription to invalidations while it
is open. `generation` counts the invalidations applied. -/
structure Hybrid where
  origin : String
  localCache : Nat
  shared : Option Nat
  options : HybridOptions
  localHits : Nat := 0
  sharedHits : Nat := 0
  misses : Nat := 0
  invalidations : Nat := 0
  generation : Nat := 0
  subscription : Option Nat := none
  deriving Repr, Inhabited

/-- An announcement that keys changed, or that all did, from the cache `origin`. -/
def invalidationJson (keys : List String) (flushAll : Bool) (origin : String) : Json :=
  .obj [("keys", .arr (keys.map .str)), ("flush_all", .bool flushAll), ("origin_id", .str origin)]

end Backplane.Cache
