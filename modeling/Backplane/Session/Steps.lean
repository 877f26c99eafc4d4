import Backplane.Host
import Backplane.Session.Fields

/-!
# Running the steps of a request

A stateful request runs its steps in order on one host. After each step every task that was
woken runs until it waits again, without moving the clock, before the next step begins. A
step may start another step as a background task (`spawn`), wait for such a task (`join`,
optionally for a limited time) or ask whether it finished (`finished`); any other step may
carry a time limit (`step_timeout_ms`), after which it is abandoned. Every kind of request
also knows `sleep`, which lets virtual time pass, and `now`, the wall clock.

A request whose steps are not done after four hundred virtual days ends with the answers so
far and the mark `stalled`.
-/

namespace Backplane.Session

open Backplane.Fiber Prog Json

/-- A step of a request: a program that may refuse its input. -/
abbrev StepM := ExceptT String Act

def act {α : Type} (p : Act α) : StepM α := ExceptT.lift p

def check {α : Type} (c : Checked α) : StepM α := ExceptT.mk (pure c)

/-- Virtual milliseconds after which a request stops: four hundred days. -/
def stallMs : Nat := 400 * 86400 * 1000

/-- How many times the steps give way after each step. -/
def settleYields : Nat := 32

/-- Give way `n` times. -/
def settle : Nat → Act Unit
  | 0 => pure ()
  | n + 1 => do yieldNow; settle n

/-- The answer of a step that ran out of time. -/
def timedOut : Json := .obj [("timed_out", .bool true)]

def u64Limit : Int := 18446744073709551615

/-- Milliseconds of a time limit. -/
def limitMs (req : Json) (k : String) : Checked (Option Nat) := do
  match ← optMillis req k with
  | some d => return some (Host.ticks d)
  | none => return none

/-- A signed 64-bit integer field. -/
def i64Field (req : Json) (k : String) : Checked Int := do
  let i ← int req k
  if Cache.Store.i64Min ≤ i && i ≤ Cache.Store.i64Max then return i
  else throw ("field '" ++ k ++ "' must be an integer")

/-- The answer of a step, a refusal shown as a bad input. -/
def answerOf (r : Except String Json) : Json :=
  match r with
  | .ok v => v
  | .error m => badInput m

/-- A step that every request knows, or the request's own. -/
def plainStep (own : Json → StepM Json) (s : Json) : StepM Json := do
  match ← check (str s "do") with
  | "sleep" =>
    let d ← check (millis s "ms")
    act (Host.sleepFor d)
    return .null
  | "now" =>
    let t ← act Host.now
    return .int t.millis
  | _ => own s

/-- A step under its time limit, if it has one. -/
def timedStep (own : Json → StepM Json) (s : Json) : Act Json := do
  match limitMs s "step_timeout_ms" with
  | .error m => return badInput m
  | .ok none => return answerOf (← (plainStep own s).run)
  | .ok (some ms) =>
    match ← withTimeout ms (plainStep own s).run with
    | some r => return answerOf r
    | none => return timedOut

/-- The task started under a name. -/
def namedTask (name : String) : StepM TaskId := do
  match (← act get).named.lookup name with
  | some t => return t
  | none => throw ("no task '" ++ name ++ "'")

/-- A step, including those that start, join and look at background steps. -/
def runStep (own : Json → StepM Json) : Nat → Json → Act Json
  | 0, s => timedStep own s
  | depth + 1, s =>
    match str s "do" with
    | .ok "spawn" => do
      let r : StepM Json := do
        let name ← check (str s "name")
        let inner ← check (need s "step")
        let t ← act (start (runStep own depth inner))
        act (modify fun h => { h with named := (name, t) :: h.named.filter (·.1 != name) })
        return .null
      return answerOf (← r.run)
    | .ok "join" => do
      let r : StepM Json := do
        let name ← check (str s "name")
        let wait ← check (limitMs s "timeout_ms")
        let t ← namedTask name
        let forget : StepM Unit :=
          act (modify fun h => { h with named := h.named.filter (·.1 != name) })
        match wait with
        | some ms =>
          match ← act (withTimeout ms (join t)) with
          | some v => forget; return v
          | none => return timedOut
        | none =>
          let v ← act (join t)
          forget
          return v
      return answerOf (← r.run)
    | .ok "finished" => do
      let r : StepM Json := do
        let t ← namedTask (← check (str s "name"))
        return .bool ((← act kernel).isDone t)
      return answerOf (← r.run)
    | _ => timedStep own s

/-- Run the steps in order, keeping each answer once the woken tasks have settled. -/
def runSteps (own : Json → StepM Json) : List Json → Act Unit
  | [] => pure ()
  | s :: rest => do
    let r ← runStep own 4 s
    settle settleYields
    modify fun h => { h with answers := h.answers ++ [r] }
    runSteps own rest

/-- The answer object of the steps: their answers, marked when the steps stalled. -/
def stepsAnswer (answers : List Json) (stalled : Bool) : List (String × Json) :=
  [("steps", .arr answers)] ++ (if stalled then [("stalled", .bool true)] else [])

/-- The main task: the setup of the request, then the steps under the four-hundred-day
limit. -/
def mainTask (setup : Act Unit) (own : Json → StepM Json) (steps : List Json) : Act Json := do
  setup
  let r ← withTimeout stallMs (runSteps own steps)
  return .obj (stepsAnswer (← get).answers r.isNone)

/-- Rounds of the scheduler a request may take. -/
def roundFuel : Nat := 5000000

/-- Run the setup and then the steps of a request on a host; the answer fields. -/
def runLine (h : Host) (setup : Act Unit) (own : Json → StepM Json) (steps : List Json) :
    List (String × Json) :=
  let m := Machine.boot h (mainTask setup own steps)
  match Machine.run m roundFuel with
  | (_, some (.obj fields)) => fields
  | (m, _) => stepsAnswer m.state.answers true

/-- The start instant of a request: `start_ms`, or 2023-11-14T22:13:20Z. -/
def startOf (req : Json) : Checked Nat :=
  match field? req "start_ms" with
  | none => .ok 1700000000000
  | some (.int i) =>
    if 0 ≤ i && i ≤ u64Limit then .ok i.toNat else .error "start_ms must be a non-negative integer"
  | some _ => .error "start_ms must be a non-negative integer"

end Backplane.Session
