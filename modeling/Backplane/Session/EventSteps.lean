import Backplane.Session.Steps
import Backplane.Hub

/-!
# Event hub steps

Steps on one hub of integer events whose listeners keep what they hear under their names:
registering permanent and one-shot listeners, unregistering them by name, emitting, and
reading what was heard (`name:value`, with `:failed` when the listener failed).
-/

namespace Backplane.Session

open Backplane.Fiber Prog Json Host

/-- What a listener hears of an event, and whether it fails on it. -/
def hear (t : Tap) (value : Int) : String × Bool :=
  let failed := t.fail || t.failOn == some value
  (t.name ++ ":" ++ toString value ++ (if failed then ":failed" else ""), failed)

/-- A step on the event hub. -/
def eventStep (s : Json) : StepM Json := do
  match ← check (str s "do") with
  | "on" | "once" =>
    let once := (← check (str s "do")) == "once"
    let name ← check (str s "as")
    let fail ← check (flag s "fail")
    let failOn ← check (optInt s "fail_on")
    act (modify fun h =>
      let id := h.listenerIds + 1
      { h with listenerIds := id, taps := h.taps.add id once ⟨name, fail, failOn⟩,
               tapNames := (name, id) :: h.tapNames.filter (·.1 != name) })
    return .null
  | "off" =>
    let name ← check (str s "as")
    let h ← act get
    match h.tapNames.lookup name with
    | some id =>
      let (taps, found) := h.taps.off id
      act (set { h with taps })
      return .bool found
    | none => return .bool false
  | "clear" =>
    let h ← act get
    let (taps, n) := h.taps.clear
    act (set { h with taps })
    return Json.nat n
  | "len" => return Json.nat (← act get).taps.size
  | "is_empty" => return .bool ((← act get).taps.size == 0)
  | "emit" =>
    let value ← check (i64Field s "value")
    let h ← act get
    let (taps, calls) := h.taps.snapshot
    let heard := calls.map fun (l : Listener Tap) => hear l.behaviour value
    act (set { h with taps, heard := h.heard ++ heard.map (fun (e : String × Bool) => e.1) })
    return Json.nat (heard.filter (fun (e : String × Bool) => e.2)).length
  | "seen" =>
    let h ← act get
    act (set { h with heard := [] })
    return .arr (h.heard.map .str)
  | d => throw ("unknown events step '" ++ d ++ "'")

/-- The answer to an `events` request. -/
def eventsAnswer (req : Json) : Checked Json := do
  let start ← startOf req
  let steps ← list req "steps"
  return .obj (runLine { startMs := start } (pure ()) eventStep steps)

end Backplane.Session
