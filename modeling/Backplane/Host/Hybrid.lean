import Backplane.Host

/-!
# Hybrid caches on a host

The operations of a hybrid cache. Reads try the local layer, then the shared cache, copying a
shared value into the local layer unless an invalidation arrived meanwhile. Writes and
removals go to both layers and are announced on the cache's topic, as is a flush.
-/

namespace Backplane.Hybrid

open Backplane.Fiber Prog Host

/-- Connect a hybrid cache to the host's bus and, optionally, its shared cache: a fresh
origin id, a new local layer, and a subscription to invalidations; its index. -/
def connect (shared : Option Nat) (options : Cache.HybridOptions) : Act Nat := do
  let origin ← uuid
  let localCache ← newCache options.localMaxItems
  let i := (← get).hybrids.length
  let c : Cache.Hybrid := { origin := origin, localCache := localCache, shared := shared,
                            options := options }
  modify fun h => { h with hybrids := h.hybrids ++ [c] }
  let sub ← subscribe options.topic (.invalidate i)
  modifyHybrid i fun c => { c with subscription := sub }
  return i

/-- Announce that keys changed, or that all did. -/
def broadcast (i : Nat) (keys : List String) (flushAll : Bool) : Act Unit := do
  let c ← hybrid i
  publishJson c.options.topic (Cache.invalidationJson keys flushAll c.origin)

/-- Copy a value read from the shared cache into the local layer, unless an invalidation
arrived since `generation`. -/
def populate (i : Nat) (key : String) (found : Cache.Value) (generation : Nat) : Act Unit := do
  let c ← hybrid i
  if c.generation != generation then return
  let t ← now
  let ttl := (found.remaining t).orElse fun _ => c.options.localTtl
  onCache c.localCache (Cache.Store.put key found.value ttl t)
  if (← hybrid i).generation != generation then
    let _ ← onCache c.localCache (Cache.Store.remove key t)

/-- Read a key: the local layer, then the shared cache. -/
def read (i : Nat) (key : String) : Act (Option (List UInt8)) := do
  let c ← hybrid i
  let t ← now
  match ← onCache c.localCache (Cache.Store.read key t) with
  | some v =>
    modifyHybrid i fun c => { c with localHits := c.localHits + 1 }
    return some v.value
  | none =>
    match c.shared with
    | none =>
      modifyHybrid i fun c => { c with misses := c.misses + 1 }
      return none
    | some s =>
      let generation := c.generation
      match ← onCache s (Cache.Store.read key t) with
      | some found =>
        modifyHybrid i fun c => { c with sharedHits := c.sharedHits + 1 }
        populate i key found generation
        return some found.value
      | none =>
        modifyHybrid i fun c => { c with misses := c.misses + 1 }
        return none

/-- Write a key in both layers and announce it. -/
def write (i : Nat) (key : String) (value : List UInt8) (ttl : Option Duration) : Act Unit := do
  let c ← hybrid i
  let t ← now
  onCache c.localCache (Cache.Store.put key value ttl t)
  if let some s := c.shared then onCache s (Cache.Store.put key value ttl t)
  broadcast i [key] false

/-- Remove a key from both layers and announce it; whether either held it. -/
def remove (i : Nat) (key : String) : Act Bool := do
  let c ← hybrid i
  let t ← now
  let mut removed ← onCache c.localCache (Cache.Store.remove key t)
  if let some s := c.shared then
    let r ← onCache s (Cache.Store.remove key t)
    removed := removed || r
  broadcast i [key] false
  return removed

/-- Remove keys from both layers and announce them; the larger of the two counts. -/
def removeAll (i : Nat) (keys : List String) : Act Nat := do
  let c ← hybrid i
  let t ← now
  let mut removed ← onCache c.localCache (Cache.Store.removeAll keys t)
  if let some s := c.shared then
    let r ← onCache s (Cache.Store.removeAll keys t)
    removed := Nat.max removed r
  broadcast i keys false
  return removed

/-- Empty both layers and announce it. -/
def flush (i : Nat) : Act Unit := do
  let c ← hybrid i
  let _ ← onCache c.localCache Cache.Store.flush
  if let some s := c.shared then
    let _ ← onCache s Cache.Store.flush
  broadcast i [] true

/-- Stop listening for invalidations. -/
def close (i : Nat) : Act Unit := do
  let c ← hybrid i
  if let some sub := c.subscription then
    modifyHybrid i fun c => { c with subscription := none }
    unsubscribe sub

end Backplane.Hybrid
