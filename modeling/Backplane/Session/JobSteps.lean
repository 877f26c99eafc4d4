import Backplane.Session.QueueSteps
import Backplane.Session.LockSteps
import Backplane.Session.Outcome
import Backplane.Session.Settings
import Backplane.Host.Runner

/-!
# Job steps

A `jobs` request sets up a queue, optionally a lock provider for the jobs, a second cache-backed
provider standing for another process (`hold`), and a runner with a scripted job or a work
item job. Steps enqueue items, run the runner once or continuously, start and stop
background workers, read the records of the runs and the progress reports, and reach the
queue and the lock cache.
-/

namespace Backplane.Session

open Backplane.Fiber Prog Json Host Jobs

/-- The totals of a continuous run. -/
def summaryJson (s : Summary) : Json :=
  .obj [("iterations", Json.nat s.iterations), ("succeeded", Json.nat s.succeeded),
    ("failed", Json.nat s.failed), ("cancelled", Json.nat s.cancelled), ("idle", Json.nat s.idle),
    ("errors", Json.nat s.errors), ("processed", Json.nat s.processed)]

/-- The limits of a continuous run in a step. -/
def runOptionsOf (s : Json) : Checked RunOptions := do
  return { iterationLimit := ← optNat s "iteration_limit"
           interval := ← millisOr s "interval_ms" Duration.zero
           untilEmpty := ← flag s "until_empty" }

/-- A cancellation token for a step: cancelled already with `cancelled`, or after
`cancel_after_ms` by a background task. -/
def stepToken (s : Json) : StepM Nat := do
  let pre ← check (flag s "cancelled")
  let after ← check (optMillis s "cancel_after_ms")
  let tok ← act (newToken none)
  if pre then act (cancel tok)
  if let some d := after then
    let _ ← act (start (do sleepFor d; cancel tok; return .null))
    pure ()
  return tok

/-- The worker started under a name: its token and task. -/
def workerNamed (name : String) : StepM (Nat × TaskId) := do
  match (← act get).workers.lookup name with
  | some w => return w
  | none => throw ("no worker '" ++ name ++ "'")

/-- Forget a worker. -/
def forgetWorker (name : String) : StepM Unit :=
  act (modify fun h => { h with workers := h.workers.filter (·.1 != name) })

/-! ## The work item handlers of a request -/

/-- A decimal number below 256, or zero. -/
def percentOf (s : String) : Nat :=
  if !s.isEmpty && s.all Char.isDigit && s.length ≤ 3 && s.toNat! < 256 then s.toNat! else 0

/-- A decimal number of milliseconds, or zero. -/
def millisOf (s : String) : Nat :=
  if !s.isEmpty && s.all Char.isDigit && s.length ≤ 20 && s.toNat! < Nat.pow 2 64 then s.toNat! else 0

/-- The `thumbnail` handler (version 2): takes `{image, width}`, locks `image:{image}`, reports
that it is resizing and answers `{image}@{width}`. -/
def thumbnailHandler : Jobs.Handler where
  kind := "thumbnail"
  version := 2
  payloadShape := .record "struct Thumbnail" [("image", .text), ("width", Wire.u32)]
  lockKey p := match p.field? "image" with
    | some (.str image) => some ("image:" ++ image)
    | _ => none
  handle _ report topic id p := do
    reportProgress report topic id "thumbnail" 50 (some "resizing")
    let image := match p.field? "image" with | some (.str s) => s | _ => ""
    let width := match p.field? "width" with | some (.int w) => toString w | _ => "0"
    return .result (.success (some (image ++ "@" ++ width)))

/-- What the `echo` handler does with its text: the prefix says what. -/
def echoText (ctx : Context) (report : Bool) (topic id : String) (p : String) : Act Ending := do
  let plain : JobResult := .success (some ("echo#" ++ toString ctx.entry.attempts ++ ":" ++ p))
  if p.startsWith "fail:" then return .result (.failed (p.drop 5).toString none)
  if p == "panic" then return .panic "echo panicked"
  if p.startsWith "progress:" then
    reportProgress report topic id "echo" (percentOf (p.drop 9).toString) none
    return .result (.success none)
  if p.startsWith "sleep:" then
    sleep (millisOf (p.drop 6).toString)
    return .result (.success (some ("slept attempt " ++ toString ctx.entry.attempts)))
  if p.startsWith "cancel-aware:" then
    let tm ← timer (millisOf (p.drop 13).toString)
    let i ← waitAny [.cancelled ctx.cancel, .timer tm]
    dropTimer tm
    if i == 0 then return .result (.cancelled "echo cancelled")
    return .result (.success none)
  return .result plain

/-- The `echo` handler (version 1): takes a text. -/
def echoHandler : Jobs.Handler where
  kind := "echo"
  version := 1
  payloadShape := .text
  lockKey _ := none
  handle ctx report topic id
    | .str p => echoText ctx report topic id p
    | _ => return .result (.failed "unexpected payload" none)

/-- The `locked` handler (version 3): takes a text `p`, locks `res:p` and answers `p|` and the
resource it holds. -/
def lockedHandler : Jobs.Handler where
  kind := "locked"
  version := 3
  payloadShape := .text
  lockKey
    | .str p => some ("res:" ++ p)
    | _ => none
  handle ctx _ _ _
    | .str p => return .result (.success (some (p ++ "|" ++ ctx.lockResource.getD "-")))
    | _ => return .result (.failed "unexpected payload" none)

/-- The handler a request names by its kind. -/
def workItemHandler? (k : String) : Option Jobs.Handler :=
  [thumbnailHandler, echoHandler, lockedHandler].find? (·.kind == k)

/-- The work item envelope a step enqueues, as bytes. -/
def envelopeOf (s : Json) : StepM (List UInt8) := do
  let kind ← check (str s "kind")
  let payload := anyField s "payload"
  let version ← check (optNat s "version")
  let raw ← check (match field? s "raw_payload" with
    | none => pure none
    | some v => some <$> bytesOf v)
  let progress ← check (flag s "progress")
  let id ← act uuid
  let t ← act now
  match workItemHandler? kind, version, raw, progress with
  | some h, none, none, false =>
    let p ← check (fieldAs "payload" h.payloadShape payload)
    return (Wire.encode (envelopeJson id h.kind h.version (Wire.encode p).toList false t)).toList
  | _, _, _, _ =>
    let bytes := match raw with
      | some b => b.toList
      | none => (Wire.encode payload.normalize).toList
    return (Wire.encode (envelopeJson id kind (version.getD 1) bytes progress t)).toList

/-- The steps of the queue that a jobs request reaches directly. -/
def queueLevelSteps : List String := ["enqueue_raw", "stats", "dead_letters", "retry_dead_letter",
  "delete_queue", "record", "force_lease_expiry", "reap", "start_reaper", "stop_reapers",
  "listen", "events", "name", "options"]

/-- A step of a jobs request; `other` is the index of the provider standing for another
process. -/
def jobStep (rn : Runner) (other : Nat) (s : Json) : StepM Json := do
  match ← check (str s "do") with
  | "enqueue" =>
    let payload ← match rn.job with
      | .script => check (itemPayload .any (anyField s "value"))
      | .workItems _ _ _ => envelopeOf s
    let id ← act (Queue.push payload)
    if let some name ← check (optStr s "as") then nameEntry name id
    return .str id
  | "run_once" =>
    let tok ← stepToken s
    match ← act (runOnce rn tok) with
    | .ok (some r) => return resultJson r
    | .ok none => return .null
    | .error e => return jobErrorJson e
  | "run_continuous" =>
    let o ← check (runOptionsOf s)
    let tok ← stepToken s
    return summaryJson (← act (runContinuous rn o tok forever {}))
  | "start" =>
    let name ← check (str s "as")
    let o ← check (runOptionsOf s)
    let tok ← act (newToken none)
    let t ← act (start do return summaryJson (← runContinuous rn o tok forever {}))
    act (modify fun h => { h with workers := (name, tok, t) :: h.workers.filter (·.1 != name) })
    return .null
  | "shutdown" =>
    let name ← check (str s "as")
    let (tok, t) ← workerNamed name
    act (cancel tok)
    let v ← act (join t)
    forgetWorker name
    return v
  | "join_worker" =>
    let name ← check (str s "as")
    let (_, t) ← workerNamed name
    let v ← act (join t)
    forgetWorker name
    return v
  | "worker_finished" =>
    let (tok, t) ← workerNamed (← check (str s "as"))
    let k ← act kernel
    return .obj [("finished", .bool (k.isDone t)), ("cancelled", .bool (k.isCancelled tok))]
  | "hold" =>
    let resource ← check (str s "resource")
    let timeout ← check (millisOr s "timeout_ms" (Duration.ofSecs 30))
    let lease ← check (millisOr s "lease_ms" (Duration.ofSecs 20))
    let pr ← providerAt other
    runLock (pr.acquire resource ⟨timeout, lease⟩) (granted s other)
  | "unhold" =>
    let (l, q) ← heldLock (← check (str s "as"))
    let pr ← providerAt q
    runLock (pr.release l) fun ok => return .bool ok
  | "runs" =>
    let rs ← act (modifyGet fun h => (h.runs, { h with runs := [] }))
    return .arr (rs.map (·.2))
  | "statuses" =>
    let ss ← act (modifyGet fun h => (h.statuses, { h with statuses := [] }))
    return .arr ss
  | "runner_options" =>
    let o := rn.options
    return .obj [("dequeue_wait_ms", durationJson o.dequeueWait), ("lock", acquireJson o.lock),
      ("renewal_interval_ms", optDurationJson o.renewalInterval)]
  | "cache" => cacheStep 0 (← check (need s "step"))
  | d =>
    if queueLevelSteps.contains d then queueStep rn.job.item s
    else throw ("unknown jobs step '" ++ d ++ "'")

/-- The kinds of the handlers a request registers. -/
def handlerKindsOf (req : Json) : Checked (List String) := do
  (← list req "handlers").mapM fun
    | .str k => if (workItemHandler? k).isSome then .ok k
      else .error ("unknown handler " ++ Literal.quote k)
    | _ => .error "handlers must be strings"

/-- The options of the runner of a request. -/
def runnerOptionsOf (req : Json) : Checked RunnerOptions := do
  let spec := (req.field? "runner").getD (.obj [])
  let d := RunnerOptions.default
  return { dequeueWait := ← millisOr spec "dequeue_wait_ms" d.dequeueWait
           lock := ⟨← millisOr spec "lock_timeout_ms" d.lock.acquireTimeout,
                    ← millisOr spec "lock_lease_ms" d.lock.lease⟩
           renewalInterval := ← optMillis spec "renewal_interval_ms" }

/-- The topic progress reports of work items go to by default. -/
def statusTopic : String := "dog.workitems.status"

/-- The answer to a `jobs` request. -/
def jobsAnswer (req : Json) : Checked Json := do
  let start ← startOf req
  let o ← queueOptionsOf ((req.field? "queue").getD (.obj []))
  let events ← flag req "events"
  let workItems ← match ← strOr req "job" "script" with
    | "script" => pure false
    | "work_items" => pure true
    | j => throw ("unknown job '" ++ j ++ "'")
  let handlers := (← handlerKindsOf req).filterMap workItemHandler?
  let locks ← match field? req "locks" with
    | none => pure none
    | some spec => some <$> providerPlan spec
  let otherPlan ← match field? req "other" with
    | none => pure (.ok (.cache Lock.CacheLockOptions.default false))
    | some spec =>
      match ← providerPlan spec with
      | .ok (.cache o bus) => pure (.ok (.cache o bus))
      | .ok _ => throw "other must be a cache provider"
      | .error e => pure (.error e)
  let runnerOptions ← runnerOptionsOf req
  let statusBus ← flagOr req "status_bus" true
  let topic ← strOr req "status_topic" statusTopic
  let steps ← list req "steps"
  let (registry, registered) := handlers.foldl (fun (acc : Registry × List Json) h =>
    let (r, res) := acc.1.register h
    (r, acc.2 ++ [checkJson jobErrorJson res])) ({}, [])
  let workFields : List (String × Json) :=
    if workItems then
      [("register", .arr registered), ("kinds", .arr (registry.kinds.map .str)),
       ("is_registered", .arr (["thumbnail", "echo", "locked", "other"].map fun k =>
         .bool (registry.isRegistered k)))]
    else []
  if let .error e := o.validate then return .obj [("create", queueErrorJson e)]
  if let some (.error e) := locks then return .obj [("locks", lockErrorJson e)]
  if let .error e := runnerOptions.validate then
    return .obj ([("runner", jobErrorJson e)] ++ workFields.take 2)
  if let .error e := otherPlan then return .obj [("other", lockErrorJson e)]
  let job : Job := if workItems then .workItems registry statusBus topic else .script
  let rn : Runner := ⟨job, runnerOptions, locks.map fun _ => 0⟩
  let other := if locks.isSome then 1 else 0
  let h : Host := { startMs := start, caches := [Cache.Store.empty none], queue := { options := o } }
  let setup : Act Unit := do
    let available ← newNotify
    modify fun h => { h with queue := { h.queue with available } }
    if events then
      let _ ← listen .record
    if let some plan := locks then
      let pr ← makeProvider plan
      modify fun h => { h with providers := h.providers ++ [pr] }
    let pr ← makeProvider otherPlan
    modify fun h => { h with providers := h.providers ++ [pr] }
    if workItems then
      let _ ← subscribe topic .progress
  return .obj (workFields ++ runLine h setup (jobStep rn other) steps)

end Backplane.Session
