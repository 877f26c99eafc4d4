import Backplane.Session.Steps
import Backplane.Wire
import Backplane.Text.Literal

/-!
# Cache steps

The steps on one in-memory cache, shared by the requests that reach a cache: `cache` itself,
the layers of a hybrid cache, and the cache behind locks. Values are bytes; a read shows the
value with its expiry, and a failed increment shows its cache error.
-/

namespace Backplane.Session

open Backplane.Fiber Prog Json

/-- Bytes as a list. -/
def bytesList (req : Json) (k : String) : Checked (List UInt8) := do
  return (← bytes req k).toList

/-- Bytes of a list, shown as text or hexadecimal. -/
def listJson (b : List UInt8) : Json := bytesJson ⟨b.toArray⟩

/-- A value read from a cache. -/
def cacheValueJson (v : Cache.Value) : Json :=
  .obj [("value", listJson v.value), ("expires_at", optStampJson v.expiresAt)]

/-- The counters of a cache. -/
def cacheStatsJson (s : Cache.Stats) : Json :=
  .obj [("items", Json.nat s.items), ("hits", Json.nat s.hits), ("misses", Json.nat s.misses),
    ("writes", Json.nat s.writes), ("evictions", Json.nat s.evictions)]

/-- The times of an entry. -/
def metadataJson (m : Cache.Metadata) : Json :=
  .obj [("created_at", stampJson m.createdAt), ("last_write_at", stampJson m.lastWriteAt),
    ("last_access_at", stampJson m.lastAccessAt), ("expires_at", optStampJson m.expiresAt)]

/-- The wire type of a typed read. -/
def typedShape (req : Json) : Checked Shape := do
  match ← strOr req "type" "value" with
  | "value" => return .any
  | "task" => return Wire.task
  | "i64" => return .signed
  | t => throw ("unknown type '" ++ t ++ "'")

/-- Read stored bytes as a value of a wire type: `{found, value}`, or the cache error. -/
def typedRead (shape : Shape) (found : Option (List UInt8)) : Json :=
  match found with
  | none => .obj [("found", .bool false), ("value", .null)]
  | some b =>
    match Wire.decode shape ⟨b.toArray⟩ with
    | .ok v => .obj [("found", .bool true), ("value", v)]
    | .error e => cacheErrorJson (.core e)

/-- A step on the cache with index `c`. -/
def cacheStep (c : Nat) (s : Json) : StepM Json := do
  let now ← act Host.now
  let run {α : Type} [Inhabited α] (op : Cache.Op α) : StepM α := act (Host.onCache c op)
  match ← check (str s "do") with
  | "get" =>
    let key ← check (str s "key")
    return ofOption cacheValueJson (← run (Cache.Store.read key now))
  | "add" =>
    let key ← check (str s "key")
    let value ← check (bytesList s "value")
    let ttl ← check (optMillis s "ttl_ms")
    return .bool (← run (Cache.Store.add key value ttl now))
  | "set" =>
    let key ← check (str s "key")
    let value ← check (bytesList s "value")
    let ttl ← check (optMillis s "ttl_ms")
    run (Cache.Store.put key value ttl now)
    return .null
  | "replace_if_equal" =>
    let key ← check (str s "key")
    let expected ← check (bytesList s "expected")
    let value ← check (bytesList s "value")
    let ttl ← check (optMillis s "ttl_ms")
    return .bool (← run (Cache.Store.replaceIfEqual key expected value ttl now))
  | "remove_if_equal" =>
    let key ← check (str s "key")
    let expected ← check (bytesList s "expected")
    return .bool (← run (Cache.Store.removeIfEqual key expected now))
  | "increment" =>
    let key ← check (str s "key")
    let by_ ← check (i64Field s "by")
    let ttl ← check (optMillis s "ttl_ms")
    match ← run (Cache.Store.increment key by_ ttl now) with
    | .ok n => return .int n
    | .error .notANumber => return cacheErrorJson (.notANumber key)
    | .error .overflow => return cacheErrorJson (.overflow key)
  | "remove" =>
    let key ← check (str s "key")
    return .bool (← run (Cache.Store.remove key now))
  | "exists" =>
    let key ← check (str s "key")
    return .bool (← run (Cache.Store.contains key now))
  | "get_expiration" =>
    let key ← check (str s "key")
    return optDurationJson (← run (Cache.Store.expiration key now))
  | "set_expiration" =>
    let key ← check (str s "key")
    let ttl ← check (millis s "ttl_ms")
    return .bool (← run (Cache.Store.setExpiration key ttl now))
  | "remove_all" =>
    let keys ← check (strList s "keys")
    return Json.nat (← run (Cache.Store.removeAll keys now))
  | "remove_by_prefix" =>
    let pre ← check (str s "prefix")
    return Json.nat (← run (Cache.Store.removeByPrefix pre))
  | "flush" => return Json.nat (← run Cache.Store.flush)
  | "set_as" =>
    let key ← check (str s "key")
    let v ← check (need s "json")
    let ttl ← check (optMillis s "ttl_ms")
    run (Cache.Store.put key (Wire.encode v.normalize).toList ttl now)
    return .null
  | "get_as" =>
    let key ← check (str s "key")
    let shape ← check (typedShape s)
    let found ← run (Cache.Store.read key now)
    return typedRead shape (found.map (·.value))
  | "stats" => return cacheStatsJson (← act (Host.cacheStats c))
  | "metadata" =>
    let key ← check (str s "key")
    return ofOption metadataJson (← run (Cache.Store.metadata key now))
  | "remove_expired" => return Json.nat (← run (Cache.Store.sweep now))
  | "start_sweeper" =>
    let every ← check (millis s "interval_ms")
    let _ ← act (start (Host.sweeper c (Host.ticks every) 1000000000))
    return .null
  | d => throw ("unknown cache step " ++ Literal.quote d)

/-- The answer to a `cache` request. -/
def cacheAnswer (req : Json) : Checked Json := do
  let start ← startOf req
  let maxItems ← optNat req "max_items"
  let steps ← list req "steps"
  let h : Host := { startMs := start, caches := [Cache.Store.empty maxItems] }
  return .obj (runLine h (pure ()) (cacheStep 0) steps)

end Backplane.Session
