import Backplane.Session.CacheSteps
import Backplane.Session.BusSteps
import Backplane.Host.Locks

/-!
# Lock steps

A `lock` request sets up lock providers over one shared cache (the host's cache 0) and one
bus, then runs steps on them. A step names its provider by index `p` (default 0); a granted
lock may be kept under a name (`as`) and later renewed, released or shown, by default through
the provider that granted it. `try_using` runs a piece of work, a sleep that may remove a
cache key, while holding a lock.
-/

namespace Backplane.Session

open Backplane.Fiber Prog Json Host

/-- A lock as the answer shows it. -/
def lockJson (l : Lock.Grant) : List (String × Json) :=
  [("resource", .str l.resource), ("token", .str l.token),
    ("acquired_at", stampJson l.acquiredAt), ("lease_expires_at", stampJson l.leaseExpiresAt),
    ("time_waited_ms", Json.nat l.timeWaited.millis), ("renewal_count", Json.nat l.renewalCount)]

/-- How a provider of a request is made. -/
inductive ProviderPlan where
  /-- A cache-backed provider; with `bus`, it announces and hears releases. -/
  | cache (options : Lock.CacheLockOptions) (bus : Bool)
  /-- A throttling provider. -/
  | throttle (options : Lock.ThrottleOptions)
  /-- The null provider. -/
  | null

/-- Read a provider spec: the plan of the provider, or the error that refuses its options. -/
def providerPlan (spec : Json) : Checked (Except LockError ProviderPlan) := do
  match ← strOr spec "kind" "cache" with
  | "cache" =>
    let d := Lock.CacheLockOptions.default
    let o : Lock.CacheLockOptions :=
      { initialBackoff := ← millisOr spec "initial_backoff_ms" d.initialBackoff
        maxBackoff := ← millisOr spec "max_backoff_ms" d.maxBackoff
        topic := ← strOr spec "topic" d.topic }
    let bus ← flag spec "bus"
    return o.validate.map fun _ => .cache o bus
  | "throttle" =>
    let d := Lock.ThrottleOptions.default
    let o : Lock.ThrottleOptions :=
      { maxPerPeriod := ← natOr spec "max_per_period" d.maxPerPeriod
        period := ← millisOr spec "period_ms" d.period }
    return o.periodMillis.map fun _ => .throttle o
  | "null" => return .ok .null
  | k => throw ("unknown provider kind '" ++ k ++ "'")

/-- Make a provider from its plan on the host. -/
def makeProvider : Except LockError ProviderPlan → Act (Except LockError Lock.Provider)
  | .error e => pure (.error e)
  | .ok (.cache o bus) => do
    let released ← newNotify
    let subscription ← if bus then subscribe o.topic (.released released) else pure none
    return .ok (.cache 0 o released bus subscription)
  | .ok (.throttle o) => pure (.ok (.throttle 0 o))
  | .ok .null => pure (.ok .null)

/-- The provider with index `p`, when it was made. -/
def providerAt (p : Nat) : StepM Lock.Provider := do
  match (← act get).providers[p]? with
  | some (.ok pr) => return pr
  | _ => throw ("no usable provider " ++ toString p)

/-- The lock kept under a name, with the index of the provider that granted it. -/
def heldLock (name : String) : StepM (Lock.Grant × Nat) := do
  match (← act get).locks.lookup name with
  | some r => return r
  | none => throw ("no lock '" ++ name ++ "'")

/-- Keep a lock under a name. -/
def keepLock (name : String) (l : Lock.Grant) (p : Nat) : StepM Unit :=
  act (modify fun h => { h with locks := (name, l, p) :: h.locks.filter (·.1 != name) })

/-- Run a provider's program; its lock error becomes the answer. -/
def runLock {α : Type} (prog : Lock.LockM α) (k : α → StepM Json) : StepM Json := do
  match ← act prog.run with
  | .ok a => k a
  | .error e => return lockErrorJson e

/-- The answer to a grant: the lock, kept under `as` when given, or `null`. -/
def granted (s : Json) (p : Nat) (r : Option Lock.Grant) : StepM Json := do
  match r with
  | none => return .null
  | some l =>
    if let some name ← check (optStr s "as") then keepLock name l p
    return .obj (lockJson l)

/-- A step on the lock providers, or a bus step. -/
def lockStep (s : Json) : StepM Json := do
  match ← check (str s "do") with
  | "acquire" =>
    let resource ← check (str s "resource")
    let timeout ← check (millisOr s "timeout_ms" (Duration.ofSecs 30))
    let lease ← check (millisOr s "lease_ms" (Duration.ofSecs 20))
    let p ← check (natOr s "p" 0)
    let pr ← providerAt p
    runLock (pr.acquire resource ⟨timeout, lease⟩) (granted s p)
  | "acquire_with" =>
    let resource ← check (str s "resource")
    let timeout ← check (millis s "timeout_ms")
    let maxPer ← check (nat s "max")
    let period ← check (millis s "period_ms")
    let p ← check (natOr s "p" 0)
    match ← providerAt p with
    | .throttle store _ => runLock (Lock.throttleWith store resource timeout maxPer period) (granted s p)
    | _ => throw "acquire_with needs a throttle provider"
  | "renew" =>
    let name ← check (str s "lock")
    let ext ← check (millis s "ext_ms")
    let (l, q) ← heldLock name
    let p ← check (natOr s "p" q)
    let pr ← providerAt p
    runLock (pr.renew l ext) fun (ok, l') => do
      keepLock name l' q
      return .obj [("renewed", .bool ok), ("lock", .obj (lockJson l'))]
  | "release" =>
    let (l, q) ← heldLock (← check (str s "lock"))
    let pr ← providerAt (← check (natOr s "p" q))
    runLock (pr.release l) fun ok => return .bool ok
  | "is_locked" =>
    let resource ← check (str s "resource")
    let pr ← providerAt (← check (natOr s "p" 0))
    runLock (pr.isLocked resource) fun b => return .bool b
  | "lock" =>
    let (l, _) ← heldLock (← check (str s "lock"))
    let t ← act now
    return .obj (lockJson l ++ [("is_expired", .bool (l.isExpired t))])
  | "try_using" =>
    let resource ← check (str s "resource")
    let timeout ← check (millisOr s "timeout_ms" (Duration.ofSecs 30))
    let lease ← check (millisOr s "lease_ms" (Duration.ofSecs 20))
    let work ← check (optMillis s "work_ms")
    let steal ← check (optStr s "steal_key")
    let value := anyField s "value"
    let pr ← providerAt (← check (natOr s "p" 0))
    runLock (pr.acquire resource ⟨timeout, lease⟩) fun
      | none => return .obj [("ran", .bool false)]
      | some l => do
        if let some d := work then act (sleepFor d)
        if let some key := steal then
          let t ← act now
          let _ ← act (onCache 0 (Cache.Store.remove key t))
        let _ ← act (pr.release l).run
        return .obj [("ran", .bool true), ("value", value)]
  | "close" =>
    let p ← check (natOr s "p" 0)
    match ← providerAt p with
    | .cache store o released bus (some sub) =>
      act (modify fun h =>
        { h with providers := h.providers.set p (.ok (.cache store o released bus none)) })
      act (unsubscribe sub)
      return .null
    | _ => return .null
  | "options" =>
    match ← providerAt (← check (natOr s "p" 0)) with
    | .throttle _ o =>
      return .obj [("max_per_period", Json.nat o.maxPerPeriod), ("period_ms", Json.nat o.period.millis)]
    | _ => throw "options needs a throttle provider"
  | "cache" => cacheStep 0 (← check (need s "step"))
  | _ => busStep (fun d => throw ("unknown lock step '" ++ d ++ "'")) s

/-- The status of a provider in the answer. -/
def providerStatus : Except LockError ProviderPlan → Json
  | .ok _ => .str "ok"
  | .error e => lockErrorJson e

/-- The answer to a `lock` request. -/
def lockAnswer (req : Json) : Checked Json := do
  let start ← startOf req
  let plans ← match field? req "providers" with
    | none => pure [.ok (.cache Lock.CacheLockOptions.default false)]
    | some _ => (← list req "providers").mapM providerPlan
  let steps ← list req "steps"
  let h : Host := { startMs := start, caches := [Cache.Store.empty none] }
  let setup : Act Unit := plans.forM fun plan => do
    let pr ← makeProvider plan
    modify fun h => { h with providers := h.providers ++ [pr] }
  return .obj ([("providers", .arr (plans.map providerStatus))] ++ runLine h setup lockStep steps)

end Backplane.Session
