import Backplane.Session.Steps

/-!
# Bus steps

Steps on the host's message bus, shared by the requests that reach a bus: subscribing a
recorder under a name, reading what it recorded, unsubscribing it, publishing raw or JSON
payloads, and the counts of the in-memory bus. Subscribing a name again replaces its
recorder and ends the old subscription.
-/

namespace Backplane.Session

open Backplane.Fiber Prog Json Host

/-- The wire types a recorder may read messages as. -/
def recorderKinds : List String := ["raw", "ping", "value", "invalidation", "lock_released",
  "work_item_status"]

/-- The subscription and log of a recorder. -/
def recorder (name : String) : StepM (Option Nat × Nat) := do
  match (← act get).subscriptions.lookup name with
  | some r => return r
  | none => throw ("no subscriber '" ++ name ++ "'")

/-- A bus step, or `other` for a step the bus does not know. -/
def busStep (other : String → StepM Json) (s : Json) : StepM Json := do
  match ← check (str s "do") with
  | "subscribe" =>
    let name ← check (str s "as")
    let topic ← check (str s "topic")
    let kind ← check (strOr s "kind" "raw")
    let fail ← check (flag s "fail")
    unless recorderKinds.contains kind do throw ("unknown kind '" ++ kind ++ "'")
    let log ← act newLog
    let sub ← act (subscribe topic (.record log kind fail))
    let old := (← act get).subscriptions.lookup name
    act (modify fun h => { h with subscriptions :=
      (name, sub, log) :: h.subscriptions.filter (·.1 != name) })
    if let some (some o, _) := old then act (unsubscribe o)
    return .obj [("topic", .str topic)]
  | "unsubscribe" | "drop_subscription" =>
    let name ← check (str s "as")
    let (sub, log) ← recorder name
    if let some o := sub then
      act (modify fun h =>
        let subs := h.subscriptions.map fun e => if e.1 == name then (name, none, log) else e
        { h with subscriptions := subs })
      act (unsubscribe o)
    return .null
  | "received" =>
    let (_, log) ← recorder (← check (str s "as"))
    return .arr (← act (logTake log))
  | "publish" =>
    let topic ← check (str s "topic")
    let payload ← check (bytes s "payload")
    act (publish topic payload.toList)
    return .null
  | "publish_message" =>
    let topic ← check (str s "topic")
    let v := anyField s "value"
    act (publishJson topic v.normalize)
    return .null
  | "subscriber_count" =>
    let topic ← check (str s "topic")
    let h ← act get
    if h.nullBus then throw "subscriber_count needs the in-memory bus"
    return Json.nat (h.bus.subscriberCount topic)
  | "published_count" =>
    let h ← act get
    if h.nullBus then throw "published_count needs the in-memory bus"
    return Json.nat h.bus.published
  | d => other d

/-- The answer to a `bus` request. -/
def busAnswer (req : Json) : Checked Json := do
  let start ← startOf req
  let nullBus ← flag req "null"
  let steps ← list req "steps"
  let h : Host := { startMs := start, nullBus }
  return .obj (runLine h (pure ()) (busStep fun d => throw ("unknown bus step '" ++ d ++ "'")) steps)

end Backplane.Session
