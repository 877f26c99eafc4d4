import Backplane.Session.CacheSteps
import Backplane.Session.BusSteps
import Backplane.Host.Hybrid

/-!
# Hybrid cache steps

A `hybrid` request connects hybrid caches, in order, to one bus and one shared cache (the
host's cache 0), then runs steps on them. A step names its cache by index `c` (default 0);
`local` and `shared` run a cache step on a cache's local layer or on the shared cache, and
`publish_invalidation` announces an invalidation from any origin. The bus steps work on the
same bus.
-/

namespace Backplane.Session

open Backplane.Fiber Prog Json Host

/-- The counters of a hybrid cache. -/
def hybridStatsJson (c : Cache.Hybrid) : Json :=
  .obj [("local_hits", Json.nat c.localHits), ("shared_hits", Json.nat c.sharedHits),
    ("misses", Json.nat c.misses), ("invalidations_received", Json.nat c.invalidations)]

/-- The hybrid cache with index `c`. -/
def hybridAt (c : Nat) : StepM Cache.Hybrid := do
  match (← act get).hybrids[c]? with
  | some hc => return hc
  | none => throw ("no cache " ++ toString c)

/-- The origin of an invalidation: a cache's index, or any text. -/
def originOf (s : Json) : StepM String := do
  match field? s "origin" with
  | none => return "someone-else"
  | some (.str o) => return o
  | some _ => return (← hybridAt (← check (nat s "origin"))).origin

/-- A step on the hybrid caches, or a bus step. -/
def hybridStep (s : Json) : StepM Json := do
  match ← check (str s "do") with
  | "shared" => cacheStep 0 (← check (need s "step"))
  | "publish_invalidation" =>
    let keys ← check (strList s "keys")
    let flushAll ← check (flag s "flush_all")
    let origin ← originOf s
    let topic ← check (strOr s "topic" Cache.invalidationTopic)
    act (publishJson topic (Cache.invalidationJson keys flushAll origin))
    return .null
  | "get" | "get_as" | "set" | "set_as" | "remove" | "remove_all" | "flush" | "stats" | "close"
  | "origin_id" | "local" => hybridCall s
  | _ => busStep (fun d => throw ("unknown hybrid step '" ++ d ++ "'")) s
where
  /-- A call on the hybrid cache `c`. -/
  hybridCall (s : Json) : StepM Json := do
    let c ← check (natOr s "c" 0)
    let hc ← hybridAt c
    match ← check (str s "do") with
    | "get" =>
      let key ← check (str s "key")
      return ofOption listJson (← act (Hybrid.read c key))
    | "get_as" =>
      let key ← check (str s "key")
      let shape ← check (typedShape s)
      return typedRead shape (← act (Hybrid.read c key))
    | "set" =>
      let key ← check (str s "key")
      let value ← check (bytesList s "value")
      let ttl ← check (optMillis s "ttl_ms")
      act (Hybrid.write c key value ttl)
      return .null
    | "set_as" =>
      let key ← check (str s "key")
      let v ← check (need s "json")
      let ttl ← check (optMillis s "ttl_ms")
      act (Hybrid.write c key (Wire.encode v.normalize).toList ttl)
      return .null
    | "remove" =>
      let key ← check (str s "key")
      return .bool (← act (Hybrid.remove c key))
    | "remove_all" =>
      let keys ← check (strList s "keys")
      return Json.nat (← act (Hybrid.removeAll c keys))
    | "flush" =>
      act (Hybrid.flush c)
      return .null
    | "stats" => return hybridStatsJson hc
    | "close" =>
      act (Hybrid.close c)
      return .null
    | "origin_id" => return .str hc.origin
    | _ => cacheStep hc.localCache (← check (need s "step"))

/-- The options of one hybrid cache of a request, and whether it uses the shared cache. -/
def hybridSpec (spec : Json) : Checked (Cache.HybridOptions × Bool) := do
  let topic ← strOr spec "topic" Cache.invalidationTopic
  let localMaxItems ← optNat spec "local_max_items"
  let localTtl ← optMillis spec "local_ttl_ms"
  let shared ← flagOr spec "shared" true
  return (⟨topic, localMaxItems, localTtl⟩, shared)

/-- The answer to a `hybrid` request. -/
def hybridAnswer (req : Json) : Checked Json := do
  let start ← startOf req
  let nullBus ← flag req "null_bus"
  let specs ← match field? req "caches" with
    | none => pure [(Cache.HybridOptions.default, true)]
    | some _ => (← list req "caches").mapM hybridSpec
  let steps ← list req "steps"
  let h : Host := { startMs := start, nullBus, caches := [Cache.Store.empty none] }
  let setup : Act Unit := specs.forM fun (o, shared) => do
    let _ ← Hybrid.connect (if shared then some 0 else none) o
  return .obj (runLine h setup hybridStep steps)

end Backplane.Session
