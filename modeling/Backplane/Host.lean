import Backplane.Fiber.Machine
import Backplane.Cache.Store
import Backplane.Cache.Hybrid
import Backplane.Bus
import Backplane.Queue.Backend
import Backplane.Lock.Lock
import Backplane.Uuid
import Backplane.Wire

/-!
# A host

A host is one process running the services: its clock and tasks, its caches, its message
bus, its hybrid caches, lock providers and queue, and the handles by which requests name what
they started. Its wall clock reads the start instant plus the virtual time elapsed.
Identifiers it hands out are UUIDs drawn from a counter.

What subscribers and listeners do is data (`Handler`, `Tap`), interpreted by the tasks that
deliver messages and emit events. Programs on a host are `Act`s.
-/

namespace Backplane

/-- What a subscriber of the bus does with the messages of its topic. -/
inductive Handler where
  /-- Keep the messages in log `log`, read as the wire type `kind` (`raw` for text); with
  `fail`, keep them as failures. -/
  | record (log : Nat) (kind : String) (fail : Bool)
  /-- Apply invalidations to the local layer of a hybrid cache. -/
  | invalidate (hybrid : Nat)
  /-- Wake the waiters of a notification object on every lock release. -/
  | released (notify : Nat)
  /-- Keep progress reports of work items. -/
  | progress
  deriving Repr, Inhabited, DecidableEq

/-- A listener of integer events that keeps what it hears under a name; it fails on every
event, or on one value. -/
structure Tap where
  name : String
  fail : Bool
  failOn : Option Int
  deriving Repr, Inhabited, DecidableEq

/-- One process running the services. -/
structure Host where
  kernel : Fiber.Kernel := {}
  startMs : Nat := 1700000000000
  uuids : Nat := 0
  named : List (String × Fiber.TaskId) := []
  answers : List Json := []
  caches : List Cache.Store := []
  bus : Bus Handler := {}
  nullBus : Bool := false
  logs : List (List Json) := []
  subscriptions : List (String × Option Nat × Nat) := []
  listenerIds : Nat := 0
  taps : Hub Tap := {}
  tapNames : List (String × Nat) := []
  heard : List String := []
  hybrids : List Cache.Hybrid := []
  providers : List (Except LockError Lock.Provider) := []
  locks : List (String × Lock.Grant × Nat) := []
  queue : Queue.Backend := {}
  queueEvents : List Queue.Event := []
  entryNames : List (String × String) := []
  entries : List (String × Queue.Leased × Json) := []
  reapers : List Nat := []
  runs : List (Nat × Json) := []
  runCount : Nat := 0
  workers : List (String × Nat × Fiber.TaskId) := []
  statuses : List Json := []
  deriving Inhabited

instance : Fiber.HasKernel Host := ⟨Host.kernel, fun h k => { h with kernel := k }⟩

/-- A program of a task on a host. -/
abbrev Act := Fiber.Prog Host

namespace Host

open Backplane.Fiber Prog

/-- How many loop turns a task that never ends may take: more than a loop that sleeps a
millisecond or more at each turn can take before the end of the timer range. -/
def forever : Nat := Nat.pow 2 40

/-- The wall clock. -/
def now : Act Stamp := do
  let h ← get
  return Stamp.ofMillis (h.startMs + h.kernel.clock)

/-- A fresh UUID. -/
def uuid : Act String :=
  modifyGet fun h => (Uuid.ofCounter (h.uuids + 1), { h with uuids := h.uuids + 1 })

/-- Whole milliseconds of a duration, rounded up: how long a timer for it runs. -/
def ticks (d : Duration) : Nat := (d.nanos + Duration.nanosPerMilli - 1) / Duration.nanosPerMilli

def sleepFor (d : Duration) : Act Unit := sleep (ticks d)

/-- The time left to wait at clock reading `c`: to the deadline when there is one, `none` once
it is reached; the whole time to wait when there is no deadline. -/
def timeLeft (deadline : Option Nat) (wait : Duration) (c : Nat) : Option Duration :=
  match deadline with
  | some d => if d ≤ c then none else some (Duration.ofMillis (d - c))
  | none => some wait

/-! ## Caches -/

/-- A new cache; its index. -/
def newCache (maxItems : Option Nat) : Act Nat :=
  modifyGet fun h => (h.caches.length, { h with caches := h.caches ++ [Cache.Store.empty maxItems] })

/-- Run an operation on a cache. -/
def onCache {α : Type} [Inhabited α] (i : Nat) (op : Cache.Op α) : Act α :=
  modifyGet fun h =>
    match h.caches[i]? with
    | some c =>
      let (a, c') := op.run c
      (a, { h with caches := h.caches.set i c' })
    | none => (default, h)

/-- A cache's counters. -/
def cacheStats (i : Nat) : Act Cache.Stats := do
  return ((← get).caches[i]?.getD {}).stats

/-- Sweep a cache now and then every `period` milliseconds; a period of zero ends at once. -/
def sweeper (cache : Nat) (period : Nat) : Nat → Act Json
  | 0 => pure .null
  | fuel + 1 => do
    if period == 0 then return .null
    let t ← now
    let _ ← onCache cache (Cache.Store.sweep t)
    sleep period
    sweeper cache period fuel

/-! ## Logs -/

/-- A new, empty log; its index. -/
def newLog : Act Nat :=
  modifyGet fun h => (h.logs.length, { h with logs := h.logs ++ [[]] })

/-- Append to a log. -/
def logAppend (log : Nat) (v : Json) : Act Unit :=
  modify fun h => { h with logs := h.logs.modify log (· ++ [v]) }

/-- Take the entries of a log, leaving it empty. -/
def logTake (log : Nat) : Act (List Json) :=
  modifyGet fun h => ((h.logs[log]?).getD [], { h with logs := h.logs.set log [] })

/-! ## Hybrid caches -/

/-- Change a hybrid cache. -/
def modifyHybrid (i : Nat) (f : Cache.Hybrid → Cache.Hybrid) : Act Unit :=
  modify fun h => { h with hybrids := h.hybrids.modify i f }

def hybrid (i : Nat) : Act Cache.Hybrid := do return ((← get).hybrids[i]?).getD default

/-- Apply an invalidation from another cache to a hybrid cache's local layer. -/
def invalidate (i : Nat) (msg : Json) : Act Unit := do
  let hc ← hybrid i
  match msg.field? "origin_id", msg.field? "flush_all", msg.field? "keys" with
  | some (.str origin), some (.bool flushAll), some (.arr keys) =>
    if origin == hc.origin then return
    modifyHybrid i fun c => { c with generation := c.generation + 1 }
    let t ← now
    if flushAll then
      let _ ← onCache hc.localCache Cache.Store.flush
    else
      let names := keys.filterMap fun | .str k => some k | _ => none
      let _ ← onCache hc.localCache (Cache.Store.removeAll names t)
    modifyHybrid i fun c => { c with invalidations := c.invalidations + 1 }
  | _, _, _ => pure ()

/-! ## The bus -/

/-- What a handler does with a message. -/
def handle (handler : Handler) (m : Message) : Act Unit := do
  let payload : ByteArray := ⟨m.payload.toArray⟩
  match handler with
  | .record log "raw" fail =>
    match String.fromUTF8? payload with
    | none => logAppend log (.obj [("failed", .str "payload is not UTF-8")])
    | some text =>
      if fail then logAppend log (.obj [("failed", .str "handler set to fail")])
      else logAppend log (.obj [("topic", .str m.topic), ("payload", .str text)])
  | .record log kind fail =>
    match Wire.byName kind with
    | some shape =>
      match Wire.decode shape payload with
      | .ok v => logAppend log (if fail then .obj [("failed", v)] else v)
      | .error _ => pure ()
    | none => pure ()
  | .invalidate i =>
    match Wire.decode Wire.invalidation payload with
    | .ok v => invalidate i v
    | .error _ => pure ()
  | .released notify =>
    match Wire.decode Wire.lockReleased payload with
    | .ok _ => notifyWaiters notify
    | .error _ => pure ()
  | .progress =>
    match Wire.decode Wire.workItemStatus payload with
    | .ok v => modify fun h => { h with statuses := h.statuses ++ [v] }
    | .error _ => pure ()

/-- The delivery of a subscriber: handle its messages in order, wait for more, and end once
it is unsubscribed and its inbox is empty. -/
def deliver (sub : Nat) : Nat → Act Json
  | 0 => pure .null
  | fuel + 1 => do
    let d ← modifyGet fun h => let r := h.bus.take sub; (r.2, { h with bus := r.1 })
    match d with
    | .message m handler =>
      handle handler m
      deliver sub fuel
    | .idle =>
      let sig := (((← get).bus.subscribers.find? (·.id == sub)).map (·.signal)).getD 0
      let _ ← waitAny [.signal sig]
      deliver sub fuel
    | .closed => pure .null

/-- Subscribe a handler to a topic and start its delivery; `none` on the null bus. -/
def subscribe (topic : String) (handler : Handler) : Act (Option Nat) := do
  if (← get).nullBus then return none
  let sig ← newSignal
  let id ← modifyGet fun h => let r := h.bus.subscribe topic handler sig; (r.2, { h with bus := r.1 })
  let _ ← start (deliver id forever)
  return some id

/-- Publish a payload on a topic. -/
def publish (topic : String) (payload : List UInt8) : Act Unit := do
  if (← get).nullBus then return
  let sigs ← modifyGet fun h => let r := h.bus.publish topic payload; (r.2, { h with bus := r.1 })
  for s in sigs do raise s

/-- Publish a JSON value, in its compact form. -/
def publishJson (topic : String) (v : Json) : Act Unit :=
  publish topic (Wire.encode v).toList

/-- End a subscription. -/
def unsubscribe (sub : Nat) : Act Unit := do
  match ← modifyGet fun h => let r := h.bus.unsubscribe sub; (r.2, { h with bus := r.1 }) with
  | some sig => raise sig
  | none => pure ()

/-! ## Queue events -/

/-- Emit queue events to the backend's listeners, one event after the other. A listener
records the event or fails, without waiting, so each event reaches the listeners in order and no
other task runs meanwhile. -/
def emitQueueEvents (evs : List Queue.Event) : Act Unit :=
  evs.forM fun ev => modify fun h =>
    let (hub, calls) := h.queue.hub.snapshot
    let recorded := calls.filterMap fun l =>
      match l.behaviour with
      | .record => some ev
      | .fail => none
    { h with queue := { h.queue with hub }, queueEvents := h.queueEvents ++ recorded }

end Host

end Backplane
