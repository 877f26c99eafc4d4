import Backplane.Json.Shape
import Backplane.Errors

/-!
# Wire types

The shapes of the messages and records that the services exchange as JSON: work items and
their progress reports, cache invalidations, lock releases, queue statistics, queue events,
entry states and records, and dead letters; and two small test messages, a task with a
number and a ping with a sequence number.
-/

namespace Backplane.Wire

open Json

def u32 : Shape := .unsigned 32

def u64 : Shape := .unsigned 64

/-- Bytes, as an array of numbers. -/
def byteList : Shape := .list (.unsigned 8)

/-- A task: `{n}`. -/
def task : Shape := .record "struct Task" [("n", u32)]

/-- A ping: `{seq}`. -/
def ping : Shape := .record "struct Ping" [("seq", u32)]

/-- A unit of work for a handler of a kind, with its encoded payload. -/
def workItem : Shape := .record "struct WorkItemData"
  [("id", .text), ("kind", .text), ("version", u32), ("payload", byteList),
   ("send_progress", .flag), ("created_at", .instant)]

/-- A progress report on a work item. -/
def workItemStatus : Shape := .record "struct WorkItemStatus"
  [("work_item_id", .text), ("kind", .text), ("progress", .unsigned 8),
   ("message", .optional .text)]

/-- An announcement that keys of a hybrid cache changed, or that all did. -/
def invalidation : Shape := .record "struct InvalidationMessage"
  [("keys", .list .text), ("flush_all", .flag), ("origin_id", .text)]

/-- An announcement that a lock was released. -/
def lockReleased : Shape := .record "struct LockReleased" [("resource", .text), ("token", .text)]

/-- The counters of a queue. -/
def queueStats : Shape := .record "struct QueueStats"
  (["queued", "working", "dead_lettered", "enqueued", "dequeued", "completed", "abandoned",
    "timeouts", "errors"].map fun k => (k, u64))

/-- What happened to a queue entry. -/
def queueEvent : Shape := .choice "QueueEvent"
  [("Enqueued", some [("id", .text), ("at", .instant)]),
   ("Dequeued", some [("id", .text), ("attempts", u32), ("lease_until", .instant),
     ("at", .instant)]),
   ("LockRenewed", some [("id", .text), ("lease_until", .instant), ("at", .instant)]),
   ("Completed", some [("id", .text), ("at", .instant)]),
   ("Abandoned", some [("id", .text), ("attempts", u32), ("reason", .optional .text),
     ("retry_at", .instant), ("at", .instant)]),
   ("LeaseExpired", some [("id", .text), ("attempts", u32), ("at", .instant)]),
   ("DeadLettered", some [("id", .text), ("attempts", u32), ("reason", .optional .text),
     ("at", .instant)])]

/-- The state of a queue entry. -/
def entryState : Shape := .choice "EntryState"
  [("Enqueued", none), ("Dequeued", some [("lease_until", .instant)]),
   ("DeadLettered", some [("at", .instant)])]

/-- A stored queue entry. -/
def entryRecord : Shape := .record "struct EntryRecord"
  [("id", .text), ("payload", byteList), ("state", entryState), ("attempts", u32),
   ("created_at", .instant), ("available_at", .instant), ("dequeued_at", .optional .instant),
   ("lease_token", .optional .text), ("last_error", .optional .text)]

/-- An entry parked after its last attempt. -/
def deadLetter : Shape := .record "struct DeadLetter"
  [("id", .text), ("payload", byteList), ("attempts", u32), ("reason", .optional .text),
   ("created_at", .instant), ("dead_lettered_at", .instant)]

/-- The wire type of a name, for requests that name one. -/
def byName : String → Option Shape
  | "value" => some .any
  | "string" => some .text
  | "task" => some task
  | "ping" => some ping
  | "work_item" => some workItem
  | "work_item_status" => some workItemStatus
  | "invalidation" => some invalidation
  | "lock_released" => some lockReleased
  | "queue_stats" => some queueStats
  | "queue_event" => some queueEvent
  | "entry_state" => some entryState
  | "entry_record" => some entryRecord
  | "dead_letter" => some deadLetter
  | _ => none

/-- The name of the JSON format in serialization errors. -/
def formatName : String := "json"

/-- Read a value of a wire type from bytes; a failure is a serialization error of the JSON
format. -/
def decode (shape : Shape) (bytes : ByteArray) : Except CoreError Json :=
  match shape.decodeBytes bytes with
  | .ok v => .ok v
  | .error e => .error (.serialization formatName e.message)

/-- The bytes of a JSON value, in its compact form. -/
def encode (v : Json) : ByteArray := v.render.toUTF8

end Backplane.Wire
