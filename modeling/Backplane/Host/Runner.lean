import Backplane.Host.Queue
import Backplane.Host.Locks
import Backplane.Jobs.WorkItem
import Backplane.Jobs.Options

/-!
# Job runners

A runner takes entries off the host's queue and runs a job on each. One run dequeues an
entry, locks the resource the job names for it (when a lock provider is configured), and
keeps the entry's lease and the lock alive from a background task while the job works. Losing
either cancels the job, and the run ends as cancelled. A successful run completes the entry;
any other hands it back with the result as its reason. The lock is released at the end.

A continuous run repeats this until cancelled or until a limit is reached, pausing between
runs; after a failure of the infrastructure it pauses at least a second.

Two jobs exist. A *scripted* job does what its item says (`do`), and keeps a record of each
run. A *work item* job dispatches envelopes to the handler registered for their kind, and
publishes progress reports for the items that ask for them.
-/

namespace Backplane.Jobs

open Backplane.Fiber Prog Host

/-- What a job sees of the entry it processes: the entry and its value, the queue's name,
the resource locked for it, and the token that tells it to stop. -/
structure Context where
  entry : Queue.Leased
  value : Json
  queueName : String
  lockResource : Option String
  cancel : Nat

/-- How a job ended: with a result, or panicking with a message. -/
inductive Ending where
  | result (r : JobResult)
  | panic (message : String)

/-- The result of a run that ended. -/
def Ending.toResult : Ending → JobResult
  | .result r => r
  | .panic m => .failed ("job panicked: " ++ m) none

/-- A handler of work items: the kind of items it takes, the newest payload version it reads,
the wire type of its payloads, the resource it locks for a payload, and what it does with
one, given the job's context and how to report progress (whether reports go out, their topic
and the item's id). -/
structure Handler where
  kind : String
  version : Nat
  payloadShape : Json.Shape
  lockKey : Json → Option String
  handle : Context → Bool → String → String → Json → Act Ending

/-- The handlers registered, in the order they were registered. -/
structure Registry where
  handlers : List Handler := []

namespace Registry

/-- Register a handler; a second handler for a kind is refused. -/
def register (r : Registry) (h : Handler) : Registry × Except JobError Unit :=
  if r.handlers.any (·.kind == h.kind) then (r, .error (.duplicateHandler h.kind))
  else ({ handlers := r.handlers ++ [h] }, .ok ())

def isRegistered (r : Registry) (k : String) : Bool := r.handlers.any (·.kind == k)

def find? (r : Registry) (k : String) : Option Handler := r.handlers.find? (·.kind == k)

/-- The registered kinds, sorted. -/
def kinds (r : Registry) : List String :=
  (r.handlers.map (·.kind)).mergeSort fun a b => decide (a ≤ b)

end Registry

/-- What a runner does with the entries it takes. -/
inductive Job where
  /-- Follow the script in the item. -/
  | script
  /-- Dispatch work items to the registered handlers; progress reports go to `statusTopic`
  when `statusBus`. -/
  | workItems (registry : Registry) (statusBus : Bool) (statusTopic : String)
  deriving Inhabited

/-- A job runner: its job, its options and the host's lock provider it uses, if any. -/
structure Runner where
  job : Job
  options : RunnerOptions
  locks : Option Nat
  deriving Inhabited

/-- The pause after a run that failed in the infrastructure. -/
def errorBackoff : Duration := Duration.ofSecs 1

/-! ## Scripted jobs -/

/-- A text field of a script, empty when absent. -/
def scriptText (v : Json) (k : String) : String :=
  match v.field? k with
  | some (.str s) => s
  | _ => ""

/-- A number field of a script, zero when absent. -/
def scriptNat (v : Json) (k : String) : Nat :=
  match v.field? k with
  | some (.int i) => i.toNat
  | _ => 0

/-- The cause in a script: one message, or a chain of them, the outermost first. -/
def scriptCause (v : Json) : Cause :=
  match v.field? "cause" with
  | some (.str s) => ⟨s, []⟩
  | some (.arr xs) =>
    match xs.filterMap fun | .str s => some s | _ => none with
    | m :: ms => ⟨m, ms⟩
    | [] => ⟨"", []⟩
  | _ => ⟨"", []⟩

/-- The resource a script locks: its `lock` field. -/
def scriptLock (v : Json) : Option String :=
  match v.field? "lock" with
  | some (.str s) => some s
  | _ => none

/-- Start the record of a run; its number. -/
def startRun (ctx : Context) : Act Nat := do
  let t ← now
  let cancelled ← isCancelled ctx.cancel
  let record : Json := .obj [("value", ctx.value), ("attempts", Json.nat ctx.entry.attempts),
    ("queue", .str ctx.queueName),
    ("lock_resource", match ctx.lockResource with | some r => .str r | none => .null),
    ("entry_id", .str ctx.entry.id), ("started_at", .int t.millis),
    ("cancelled_at_start", .bool cancelled)]
  modifyGet fun h => (h.runCount, { h with runs := h.runs ++ [(h.runCount, record)],
                                           runCount := h.runCount + 1 })

/-- Finish the record of a run. -/
def endRun (ctx : Context) (n : Nat) : Act Unit := do
  let t ← now
  let cancelled ← isCancelled ctx.cancel
  let extra : List (String × Json) := [("ended_at", .int t.millis), ("cancelled_at_end", .bool cancelled)]
  modify fun h => { h with runs := h.runs.map fun (i, r) =>
    if i == n then (i, match r with | .obj fs => .obj (fs ++ extra) | _ => r) else (i, r) }

/-- What a script does. -/
def script (ctx : Context) : Act Ending := do
  let v := ctx.value
  let msg := scriptText v "msg"
  match scriptText v "do" with
  | "succeed" =>
    match v.field? "msg" with
    | some (.str m) => return .result (.success (some m))
    | _ => return .result (.success none)
  | "fail" => return .result (.failed msg none)
  | "fail_with" => return .result (.failed msg (some (scriptCause v)))
  | "error" => return .result (JobResult.ofCause (scriptCause v))
  | "cancelled" => return .result (.cancelled msg)
  | "panic" => return .panic msg
  | "panic_str" => return .panic "static panic text"
  | "panic_other" => return .panic "unknown panic"
  | "sleep" =>
    sleep (scriptNat v "ms")
    return .result (.success (some msg))
  | "wait_cancel" =>
    let tm ← timer (scriptNat v "ms")
    let i ← waitAny [.cancelled ctx.cancel, .timer tm]
    dropTimer tm
    if i == 0 then return .result (.cancelled msg)
    return .result (.success (some "not cancelled"))
  | d => return .result (.failed ("unknown script '" ++ d ++ "'") none)

/-- Run a script, keeping the record of the run; a run that panics keeps no end. -/
def runScript (ctx : Context) : Act Ending := do
  let n ← startRun ctx
  let e ← script ctx
  if let .result _ := e then endRun ctx n
  return e

/-! ## Work items -/

/-- Publish a progress report on a work item, when it asked for reports and reports are
published. -/
def reportProgress (report : Bool) (topic id kind : String) (progress : Nat)
    (message : Option String) : Act Unit := do
  if report then publishJson topic (statusJson id kind progress message)

/-- Dispatch a work item to its handler; a successful item reports completion. -/
def runWorkItem (reg : Registry) (statusBus : Bool) (topic : String) (ctx : Context) :
    Act Ending := do
  let data := ctx.value
  let kind := scriptText data "kind"
  let id := scriptText data "id"
  let version := scriptNat data "version"
  match reg.find? kind with
  | none => return .result (.failed ("unknown work item kind '" ++ kind ++ "'") none)
  | some h =>
    if version > h.version then
      return .result (.failed ("work item kind '" ++ kind ++ "' version " ++ toString version ++
        " is newer than supported version " ++ toString h.version) none)
    let asked := match data.field? "send_progress" with | some (.bool b) => b | _ => false
    let report := statusBus && asked
    match h.payloadShape.decodeBytes ⟨(envelopeBytes data).toArray⟩ with
    | .error e =>
      let cause : Cause := ⟨(CoreError.serialization Wire.formatName e.message).message, []⟩
      return .result (.failed ("payload for work item kind '" ++ kind ++ "' failed to decode")
        (some cause))
    | .ok payload =>
      let e ← h.handle ctx report topic id payload
      if let .result r := e then
        if r.isSuccess then reportProgress report topic id kind 100 r.message
      return e

/-! ## Runs -/

namespace Job

/-- The resource a job locks for an item. -/
def lockKey : Job → Json → Option String
  | .script, v => scriptLock v
  | .workItems reg _ _, data =>
    (reg.find? (scriptText data "kind")).bind fun h =>
      match h.payloadShape.decodeBytes ⟨(envelopeBytes data).toArray⟩ with
      | .ok p => h.lockKey p
      | .error _ => none

/-- Process an entry. -/
def process : Job → Context → Act Ending
  | .script, ctx => runScript ctx
  | .workItems reg bus topic, ctx => runWorkItem reg bus topic ctx

/-- The wire type of a job's items. -/
def item : Job → Json.Shape
  | .script => .any
  | .workItems _ _ _ => Wire.workItem

end Job

/-- Complete the entry of a successful run, or hand it back with the result as reason;
false when a completion found the entry no longer owned. -/
def finish (e : Queue.Leased) (r : JobResult) : Act Bool := do
  if r.isSuccess then Queue.complete e.id e.token
  else
    let _ ← Queue.giveBack e.id e.token (some (r.abandonReason.getD ""))
    return true

/-- Renew the entry's lease, then the lock; the renewed lock, or `none` once either is
lost. -/
def renewOnce (e : Queue.Leased) (queueLease : Duration)
    (lock : Option (Lock.Provider × Lock.Grant)) (lockLease : Duration) :
    Act (Option (Option (Lock.Provider × Lock.Grant))) := do
  if !(← Queue.renew e.id e.token queueLease) then return none
  match lock with
  | none => return some none
  | some (p, l) =>
    match ← (p.renew l lockLease).run with
    | .ok (true, l') => return some (some (p, l'))
    | _ => return none

/-- Keep the leases of a run alive every `interval` milliseconds until `stop` is
cancelled; on a lost lease, cancel the job. Whether ownership was lost. -/
def renewal (e : Queue.Leased) (queueLease lockLease : Duration) (interval jobCancel stop : Nat) :
    Option (Lock.Provider × Lock.Grant) → Nat → Act Json
  | _, 0 => pure (.bool false)
  | lock, fuel + 1 => do
    let tm ← timer interval
    let i ← select [.cancelled stop, .timer tm]
    dropTimer tm
    if i == 0 then return .bool false
    match ← renewOnce e queueLease lock lockLease with
    | some lock' => renewal e queueLease lockLease interval jobCancel stop lock' fuel
    | none =>
      cancel jobCancel
      return .bool true

/-- How taking the lock of a run went. -/
inductive LockOutcome where
  | unlocked
  | held (p : Lock.Provider) (l : Lock.Grant)
  | timedOut
  | failed (e : LockError)

/-- Take the lock the job names for an item, with the runner's provider. -/
def takeLock (rn : Runner) (value : Json) : Act LockOutcome := do
  match rn.job.lockKey value, rn.locks with
  | some key, some i =>
    match (← get).providers[i]? with
    | some (.ok p) =>
      match ← (p.acquire key rn.options.lock).run with
      | .ok (some l) => return .held p l
      | .ok none => return .timedOut
      | .error e => return .failed e
    | _ => return .unlocked
  | _, _ => return .unlocked

/-- Work on a taken entry, holding its lock if any, and settle it. -/
def work (rn : Runner) (cancelTok : Nat) (e : Queue.Leased) (v : Json)
    (held : Option (Lock.Provider × Lock.Grant)) : Act JobResult := do
  let jobCancel ← newToken (some cancelTok)
  let stop ← newToken none
  let queueLease := e.leaseUntil.since e.dequeuedAt
  let interval := rn.options.renewalFor queueLease held.isSome
  let renewer ← start (renewal e queueLease rn.options.lock.lease (ticks interval) jobCancel stop
    held forever)
  let ctx : Context := ⟨e, v, (← Queue.options).name, held.map (·.2.resource), jobCancel⟩
  let outcome := (← rn.job.process ctx).toResult
  cancel stop
  let lost := match ← join renewer with | .bool b => b | _ => false
  let result : JobResult :=
    if lost then .cancelled ("ownership lost while processing (" ++ outcome.text ++ ")") else outcome
  let finished ← finish e result
  if let some (p, l) := held then
    let _ ← (p.release l).run
  return if finished then result else .cancelled "ownership lost before completion"

/-- Process at most one entry: `none` when cancelled already or when no entry came in time. -/
def runOnce (rn : Runner) (cancelTok : Nat) : Act (Except JobError (Option JobResult)) := do
  if ← isCancelled cancelTok then return .ok none
  match ← Queue.pullTyped rn.job.item rn.options.dequeueWait with
  | .error e => return .error (.queue e)
  | .ok none => return .ok none
  | .ok (some (e, v)) =>
    match ← takeLock rn v with
    | .unlocked => return .ok (some (← work rn cancelTok e v none))
    | .held p l => return .ok (some (← work rn cancelTok e v (some (p, l))))
    | .timedOut =>
      let r : JobResult := .failed "unable to acquire lock" none
      let _ ← finish e r
      return .ok (some r)
    | .failed le =>
      let err : JobError := .lock le
      let _ ← finish e (.failed err.message none)
      return .error err

/-- Limits of a continuous run. -/
structure RunOptions where
  iterationLimit : Option Nat := none
  interval : Duration := Duration.zero
  untilEmpty : Bool := false
  deriving Repr, Inhabited

/-- The totals of a continuous run. -/
structure Summary where
  iterations : Nat := 0
  succeeded : Nat := 0
  failed : Nat := 0
  cancelled : Nat := 0
  idle : Nat := 0
  errors : Nat := 0
  deriving Repr, Inhabited, DecidableEq

/-- Count a result. -/
def Summary.record (s : Summary) : JobResult → Summary
  | .success _ => { s with succeeded := s.succeeded + 1 }
  | .failed _ _ => { s with failed := s.failed + 1 }
  | .cancelled _ => { s with cancelled := s.cancelled + 1 }

/-- The runs that produced a result. -/
def Summary.processed (s : Summary) : Nat := s.succeeded + s.failed + s.cancelled

/-- Run until the token is cancelled or a limit is reached. -/
def runContinuous (rn : Runner) (o : RunOptions) (tok : Nat) : Nat → Summary → Act Summary
  | 0, s => pure s
  | fuel + 1, s => do
    if ← isCancelled tok then return s
    if o.iterationLimit.any (· ≤ s.iterations) then return s
    let (s, pause) ← match ← runOnce rn tok with
      | .ok (some r) => pure (s.record r, some o.interval)
      | .ok none =>
        let s := { s with idle := s.idle + 1 }
        pure (s, if o.untilEmpty then none else some o.interval)
      | .error _ => pure ({ s with errors := s.errors + 1 }, some (Duration.maxOf o.interval errorBackoff))
    let s := { s with iterations := s.iterations + 1 }
    match pause with
    | none => return s
    | some p =>
      if !p.isZero then
        let tm ← timer (ticks p)
        let i ← select [.cancelled tok, .timer tm]
        dropTimer tm
        if i == 0 then return s
      runContinuous rn o tok fuel s

end Backplane.Jobs
