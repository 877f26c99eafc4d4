import Backplane.Session.Settings
import Backplane.Session.Outcome
import Backplane.Session.Format
import Backplane.Uuid
import Backplane.Session.CacheSteps
import Backplane.Session.BusSteps
import Backplane.Session.EventSteps
import Backplane.Session.HybridSteps
import Backplane.Session.LockSteps
import Backplane.Session.QueueSteps
import Backplane.Session.JobSteps

/-!
# Answering a line

Each line of input is one request, answered by one line: the request is read as JSON, its
`op` chooses what to do, and the answer is written in compact JSON with its objects sorted by
key and its UUIDs numbered by first appearance. A request that cannot be read, or that names
no known operation, is answered as a bad input.
-/

namespace Backplane.Session

open Json

/-- Read a line of input as JSON. -/
def parseLine (line : String) : Except ReadError Json :=
  Shape.any.decodeBytes line.toUTF8

/-- The answer to a request, as a JSON value. -/
def answer (req : Json) : Json :=
  let result : Checked Json := do
    match ← str req "op" with
    | "config" => configAnswer req
    | "options" => optionsAnswer req
    | "job_result" => outcomeAnswer req
    | "json" => formatAnswer req
    | "cache" => cacheAnswer req
    | "bus" => busAnswer req
    | "events" => eventsAnswer req
    | "hybrid" => hybridAnswer req
    | "lock" => lockAnswer req
    | "queue" => queueAnswer req
    | "jobs" => jobsAnswer req
    | op => throw ("unknown op '" ++ op ++ "'")
  match result with
  | .ok v => v
  | .error m => badInput m

/-- The answer line to an input line. -/
def respond (line : String) : String :=
  let v := match parseLine line with
    | .ok req => answer req
    | .error e => badInput e.message
  Uuid.renumber v.normalize.render

end Backplane.Session
