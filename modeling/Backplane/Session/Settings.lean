import Backplane.Session.Fields
import Backplane.Config
import Backplane.Queue.Options
import Backplane.Lock.Options
import Backplane.Jobs.Options
import Backplane.Cache.Options

/-!
# Configuration requests

`config` sets keys, may load environment variables under a prefix, and reads keys back with
every typed getter. `options` builds the options of one service from settings and shows them
with the outcome of their validation.
-/

namespace Backplane.Session

open Json

/-- A list of `[key, value]` string pairs. -/
def pairs (req : Json) (k : String) : Checked (List (String × String)) := do
  (← list req k).mapM fun
    | .arr [.str a, .str b] => .ok (a, b)
    | _ => .error ("field '" ++ k ++ "' must be a list of [name, value] pairs")

/-- A configuration with the request's `set` pairs applied in order. -/
def configOf (req : Json) : Checked Config := do
  return (← pairs req "set").foldl (fun c (k, v) => c.set k v) Config.empty

/-- Variables as an environment holds them: each name once, where it was first set, with the
value it was set to last. -/
def environment (vars : List (String × String)) : List (String × String) :=
  vars.foldl (fun env (k, v) => Config.setEntry k v env) []

/-- Every typed reading of a key. -/
def readings (c : Config) (k : String) : Json :=
  .obj [("key", .str k), ("has", .bool (c.has k)), ("get", ofOption .str (c.get? k)),
    ("string", ofOption .str (c.get? k)), ("usize", ofOption Json.nat (c.getSize k)),
    ("u64", ofOption Json.nat (c.getU64 k)), ("u32", ofOption Json.nat (c.getU32 k)),
    ("bool", ofOption .bool (c.getBool k)),
    ("duration_ms", ofOption durationJson (c.getMillis k))]

/-- The answer to a `config` request. -/
def configAnswer (req : Json) : Checked Json := do
  let c ← configOf req
  let (c, loaded) ← match field? req "env_prefix" with
    | none => pure (c, none)
    | some _ => do
      let pre ← str req "env_prefix"
      if pre.isEmpty then
        throw "env_prefix must be non-empty and match no variable of the driver's environment"
      let vars ← pairs req "env"
      if vars.any fun (n, _) => n.isEmpty || n.contains '=' || n.contains (Char.ofNat 0) then
        throw "env names must be non-empty without '=' or NUL"
      let (c, n) := c.loadEnv pre (environment vars)
      pure (c, some n)
  let gets := (← strList req "get").map (readings c)
  return .obj ([("get", .arr gets)] ++ (loaded.map fun n => ("loaded", Json.nat n)).toList)

/-- Acquire options as an object. -/
def acquireJson (o : Lock.AcquireOptions) : Json :=
  .obj [("acquire_timeout_ms", durationJson o.acquireTimeout), ("lease_ms", durationJson o.lease)]

/-- The answer to an `options` request. -/
def optionsAnswer (req : Json) : Checked Json := do
  let c ← configOf req
  let pre ← strOr req "prefix" ""
  match ← str req "kind" with
  | "queue" =>
    let o := Queue.Options.fromConfig c pre (← strOr req "name" "default")
    let attempts ← (← list req "attempts").mapM fun
      | .int i => if i ≥ 0 then .ok i.toNat else .error "attempts must be non-negative integers"
      | _ => .error "attempts must be non-negative integers"
    return .obj [
      ("options", .obj [("name", .str o.name),
        ("visibility_timeout_ms", durationJson o.visibilityTimeout),
        ("max_attempts", Json.nat o.maxAttempts), ("retry_delay_ms", durationJson o.retryDelay),
        ("max_retry_delay_ms", durationJson o.maxRetryDelay),
        ("sweep_interval_ms", durationJson o.sweepInterval)]),
      ("validate", checkJson queueErrorJson o.validate),
      ("retry_delays_ms", .arr (attempts.map fun a => durationJson (o.retryDelayFor a)))]
  | "hybrid" =>
    let o := Cache.HybridOptions.fromConfig c pre
    return .obj [("topic", .str o.topic), ("local_max_items", ofOption Json.nat o.localMaxItems),
      ("local_ttl_ms", optDurationJson o.localTtl)]
  | "memory_cache" =>
    return .obj [("max_items", ofOption Json.nat (Cache.MemoryOptions.fromConfig c pre).maxItems)]
  | "cache_lock" =>
    let o := Lock.CacheLockOptions.fromConfig c pre
    return .obj [("initial_backoff_ms", durationJson o.initialBackoff),
      ("max_backoff_ms", durationJson o.maxBackoff), ("topic", .str o.topic),
      ("validate", checkJson lockErrorJson o.validate)]
  | "acquire" => return acquireJson (Lock.AcquireOptions.fromConfig c pre)
  | "throttle" =>
    let o := Lock.ThrottleOptions.fromConfig c pre
    return .obj [("max_per_period", Json.nat o.maxPerPeriod), ("period_ms", durationJson o.period),
      ("validate", checkJson lockErrorJson ((fun _ => ()) <$> o.periodMillis))]
  | "job_runner" =>
    let o := Jobs.RunnerOptions.fromConfig c pre
    return .obj [("dequeue_wait_ms", durationJson o.dequeueWait), ("lock", acquireJson o.lock),
      ("renewal_interval_ms", optDurationJson o.renewalInterval),
      ("validate", checkJson jobErrorJson o.validate)]
  | k => throw ("unknown kind '" ++ k ++ "'")

end Backplane.Session
