import Backplane.Session.CacheSteps
import Backplane.Session.Format
import Backplane.Host.Queue

/-!
# Queue steps

A `queue` request creates an in-memory queue from its options and runs steps on it. Values
are JSON of a wire type (`item`): any value, or a task. An entry added or delivered may be
named (`as`): a name stands for the entry's id wherever an id is asked for, and a delivered
entry is kept under its name, with its value and lease, for the steps that prove ownership.
-/

namespace Backplane.Session

open Backplane.Fiber Prog Json Host

/-- The wire type of the items of a queue: `value` or `task`. -/
def itemShape (req : Json) : Checked Shape := do
  match ← strOr req "item" "value" with
  | "value" => return .any
  | "task" => return Wire.task
  | t => throw ("unknown item '" ++ t ++ "'")

/-- A delivered entry with its value. -/
def leasedJson (e : Queue.Leased) (v : Json) : List (String × Json) :=
  [("id", .str e.id), ("value", v), ("attempts", Json.nat e.attempts),
    ("enqueued_at", stampJson e.enqueuedAt), ("dequeued_at", stampJson e.dequeuedAt),
    ("lease_until", stampJson e.leaseUntil), ("token", .str e.token)]

/-- The state of a stored entry. -/
def entryStateJson : Queue.State → Json
  | .enqueued => .obj [("name", .str "enqueued")]
  | .dequeued t => .obj [("name", .str "dequeued"), ("lease_until", stampJson t)]
  | .deadLettered t => .obj [("name", .str "dead_lettered"), ("at", stampJson t)]

/-- A stored entry. -/
def recordJson (r : Queue.Record) : Json :=
  .obj [("id", .str r.id), ("payload", listJson r.payload), ("state", entryStateJson r.state),
    ("attempts", Json.nat r.attempts), ("created_at", stampJson r.createdAt),
    ("available_at", stampJson r.availableAt), ("dequeued_at", optStampJson r.dequeuedAt),
    ("lease_token", ofOption .str r.leaseToken), ("last_error", ofOption .str r.lastError)]

/-- A dead letter. -/
def deadLetterJson (d : Queue.DeadLetter) : Json :=
  .obj [("id", .str d.id), ("payload", listJson d.payload), ("attempts", Json.nat d.attempts),
    ("reason", ofOption .str d.reason), ("created_at", stampJson d.createdAt),
    ("dead_lettered_at", stampJson d.deadLetteredAt)]

/-- An event of the queue. -/
def queueEventJson (ev : Queue.Event) : Json :=
  let head (id : String) (at_ : Stamp) : List (String × Json) :=
    [("event", .str ev.name), ("id", .str id), ("at", stampJson at_)]
  match ev with
  | .enqueued id at_ => .obj (head id at_)
  | .dequeued id n till at_ =>
    .obj (head id at_ ++ [("attempts", Json.nat n), ("lease_until", stampJson till)])
  | .lockRenewed id till at_ => .obj (head id at_ ++ [("lease_until", stampJson till)])
  | .completed id at_ => .obj (head id at_)
  | .abandoned id n reason retryAt at_ =>
    .obj (head id at_ ++ [("attempts", Json.nat n), ("reason", ofOption .str reason),
      ("retry_at", stampJson retryAt)])
  | .leaseExpired id n at_ => .obj (head id at_ ++ [("attempts", Json.nat n)])
  | .deadLettered id n reason at_ =>
    .obj (head id at_ ++ [("attempts", Json.nat n), ("reason", ofOption .str reason)])

/-- The counts of a queue. -/
def queueStatsJson (s : Queue.Stats) : Json :=
  .obj [("queued", Json.nat s.queued), ("working", Json.nat s.working),
    ("dead_lettered", Json.nat s.deadLettered), ("enqueued", Json.nat s.counters.enqueued),
    ("dequeued", Json.nat s.counters.dequeued), ("completed", Json.nat s.counters.completed),
    ("abandoned", Json.nat s.counters.abandoned), ("timeouts", Json.nat s.counters.timeouts),
    ("errors", Json.nat s.counters.errors), ("total_held", Json.nat s.totalHeld)]

/-- The options of a queue. -/
def queueOptionsJson (o : Queue.Options) : Json :=
  .obj [("name", .str o.name), ("visibility_timeout_ms", durationJson o.visibilityTimeout),
    ("max_attempts", Json.nat o.maxAttempts), ("retry_delay_ms", durationJson o.retryDelay),
    ("max_retry_delay_ms", durationJson o.maxRetryDelay),
    ("sweep_interval_ms", durationJson o.sweepInterval)]

/-- The entry id a field names: a name given to an entry, or the id itself. -/
def entryId (s : Json) (k : String) : StepM String := do
  let name ← check (str s k)
  return ((← act get).entryNames.lookup name).getD name

/-- Name an entry id. -/
def nameEntry (name id : String) : StepM Unit :=
  act (modify fun h => { h with entryNames := (name, id) :: h.entryNames.filter (·.1 != name) })

/-- The delivered entry kept under the name in field `entry`, with its name. -/
def heldEntry (s : Json) : StepM (String × Queue.Leased × Json) := do
  let name ← check (str s "entry")
  match (← act get).entries.lookup name with
  | some e => return (name, e)
  | none => throw ("no entry '" ++ name ++ "'")

/-- Keep a delivered entry under a name. -/
def keepEntry (name : String) (e : Queue.Leased) (v : Json) : StepM Unit := do
  nameEntry name e.id
  act (modify fun h => { h with entries := (name, e, v) :: h.entries.filter (·.1 != name) })

/-- Add a listener of the queue's events; how many listeners there are. -/
def listen (w : Queue.Watcher) : Act Nat :=
  modifyGet fun h =>
    let id := h.listenerIds + 1
    let hub := h.queue.hub.add id false w
    (hub.size, { h with listenerIds := id, queue := { h.queue with hub } })

/-- Stop the reapers. -/
def stopReapers : Act Unit := do
  for tok in (← get).reapers do cancel tok
  modify fun h => { h with reapers := [] }

/-- Add a value of the item type to the queue, named by `as` when given; its id. -/
def enqueueStep (item : Shape) (s : Json) : StepM Json := do
  let payload ← check (itemPayload item (anyField s "value"))
  let id ← act (Queue.push payload)
  if let some name ← check (optStr s "as") then nameEntry name id
  return .str id

/-- Wait for an entry and deliver it, kept under `as` when given. -/
def dequeueStep (item : Shape) (s : Json) : StepM Json := do
  let wait ← check (millisOr s "wait_ms" Duration.zero)
  match ← act (Queue.pullTyped item wait) with
  | .error e => return queueErrorJson e
  | .ok none => return .null
  | .ok (some (e, v)) =>
    if let some name ← check (optStr s "as") then keepEntry name e v
    return .obj (leasedJson e v)

/-- A step on the queue. -/
def queueStep (item : Shape) (s : Json) : StepM Json := do
  match ← check (str s "do") with
  | "enqueue" => enqueueStep item s
  | "enqueue_raw" =>
    let payload ← check (bytesList s "payload")
    let id ← act (Queue.push payload)
    if let some name ← check (optStr s "as") then nameEntry name id
    return .str id
  | "dequeue" => dequeueStep item s
  | "renew" =>
    let (name, e, v) ← heldEntry s
    let ext ← check (millis s "ext_ms")
    let ok ← act (Queue.renew e.id e.token ext)
    let e ← if ok then do
        let t ← act now
        let e' := { e with leaseUntil := t.addOrMax ext }
        keepEntry name e' v
        pure e'
      else pure e
    return .obj [("renewed", .bool ok), ("lease_until", stampJson e.leaseUntil)]
  | "complete" =>
    let (_, e, _) ← heldEntry s
    return .bool (← act (Queue.complete e.id e.token))
  | "abandon" =>
    let (_, e, _) ← heldEntry s
    let reason ← check (optStr s "reason")
    return .bool (← act (Queue.giveBack e.id e.token reason))
  | "entry" =>
    let (_, e, v) ← heldEntry s
    let t ← act now
    return .obj (leasedJson e v ++ [("lease_expired", .bool (decide (e.leaseUntil ≤ t)))])
  | "decode" =>
    let i ← check (nat s "index")
    match ((← act Queue.store).deadLetters)[i]? with
    | none => return .null
    | some d =>
      match Wire.decode item ⟨d.payload.toArray⟩ with
      | .ok v => return .obj [("value", v)]
      | .error e => return queueErrorJson (.serialization e)
  | "dead_letters" => return .arr ((← act Queue.store).deadLetters.map deadLetterJson)
  | "retry_dead_letter" =>
    let id ← entryId s "id"
    return .bool (← act (Queue.retryDeadLetter id))
  | "stats" => return queueStatsJson (← act Queue.store).stats
  | "delete_queue" =>
    act (modify fun h => { h with queue := { h.queue with store := {} } })
    return .null
  | "record" =>
    let id ← entryId s "id"
    return ofOption recordJson ((← act Queue.store).find? id)
  | "force_lease_expiry" =>
    let id ← entryId s "id"
    let t ← act now
    return .bool (← act (Queue.onStore (Queue.Store.forceLeaseExpiry id t)))
  | "reap" =>
    let at_ ← check (optInt s "at_ms")
    let t ← match at_ with
      | some ms => pure (Stamp.ofMillis ms)
      | none => act now
    return Json.nat (← act (Queue.reap t))
  | "start_reaper" =>
    let o ← act Queue.options
    let every ← check (millisOr s "interval_ms" o.sweepInterval)
    let tok ← act (newToken none)
    let _ ← act (start (Queue.reaper tok (ticks every) forever))
    act (modify fun h => { h with reapers := h.reapers ++ [tok] })
    return .null
  | "stop_reapers" =>
    act stopReapers
    return .null
  | "listen" =>
    let fail ← check (flag s "fail")
    return Json.nat (← act (listen (if fail then .fail else .record)))
  | "events" =>
    let evs ← act (modifyGet fun h => (h.queueEvents, { h with queueEvents := [] }))
    return .arr (evs.map queueEventJson)
  | "name" => return .str (← act Queue.options).name
  | "options" => return queueOptionsJson (← act Queue.options)
  | d => throw ("unknown queue step '" ++ d ++ "'")

/-- Queue options from a spec object, each field defaulting. -/
def queueOptionsOf (spec : Json) : Checked Queue.Options := do
  let d := Queue.Options.named (← strOr spec "name" "default")
  return { d with
    visibilityTimeout := ← millisOr spec "visibility_timeout_ms" d.visibilityTimeout
    maxAttempts := ← natOr spec "max_attempts" d.maxAttempts
    retryDelay := ← millisOr spec "retry_delay_ms" d.retryDelay
    maxRetryDelay := ← millisOr spec "max_retry_delay_ms" d.maxRetryDelay
    sweepInterval := ← millisOr spec "sweep_interval_ms" d.sweepInterval }

/-- The answer to a `queue` request. -/
def queueAnswer (req : Json) : Checked Json := do
  let start ← startOf req
  let o ← queueOptionsOf ((req.field? "options").getD (.obj []))
  let item ← itemShape req
  let events ← flag req "events"
  let steps ← list req "steps"
  match o.validate with
  | .error e => return .obj [("create", queueErrorJson e)]
  | .ok () =>
    let h : Host := { startMs := start, queue := { options := o } }
    let setup : Act Unit := do
      let available ← newNotify
      modify fun h => { h with queue := { h.queue with available } }
      if events then
        let _ ← listen .record
    return .obj (runLine h setup (queueStep item) steps)

end Backplane.Session
