import Backplane.Host

/-!
# Lock providers on a host

What the three providers do when asked for a lock, to renew or release one, or whether a
resource is taken.

A cache-backed provider tries to add its token under the resource's key; while the key is
taken it waits for a release or for its backoff, whichever comes first, the backoff cut to
the time left to try and to the time the holder's lease has left. A throttling provider
counts the attempt in the current period's bucket; past the limit it sleeps to the next
period, unless that begins after the time to try is over. The null provider grants at once.

Attempts are timed on the task clock; the instants in a lock are read from the wall clock.
-/

namespace Backplane.Lock

open Backplane.Fiber Prog Host

/-- A program of a provider, which may fail with a lock error. -/
abbrev LockM := ExceptT LockError Act

/-- Run a host program inside a provider's program. -/
def onHost {α : Type} (p : Act α) : LockM α := ExceptT.lift p

/-- Seconds of a time to try beyond which the monotonic clock has no deadline for it. -/
def unboundedSecs : Nat := Nat.pow 2 62

/-- The first clock reading at or after `started + timeout`, where trying ends; none for a
time too long to mark. -/
def deadlineOf (started : Nat) (timeout : Duration) : Option Nat :=
  if timeout.secs < unboundedSecs then some (started + ticks timeout) else none

/-- The last clock reading at or before `started + timeout`; none for a time too long to
mark. -/
def lastTickOf (started : Nat) (timeout : Duration) : Option Nat :=
  if timeout.secs < unboundedSecs then some (started + timeout.millis) else none

/-- The lock error of a counter that could not be incremented. -/
def counterError (key : String) : Cache.Store.CounterFault → LockError
  | .notANumber => .cache (.notANumber key)
  | .overflow => .cache (.overflow key)

/-- A lock granted now, whose lease ends at `leaseEnd`, after waiting since `started`. -/
def grant (resource token : String) (leaseEnd : Stamp) (started : Nat) : Act Grant := do
  let t ← now
  let waited := Duration.ofMillis ((← clock) - started)
  return ⟨resource, token, t, leaseEnd, waited, 0⟩

/-- The pause of a cache-backed provider after `attempt` failed attempts: its backoff, cut to
the time left to try and, when the holder's key expires, to the time the key has left plus a
millisecond. -/
def CacheLockOptions.pause (o : CacheLockOptions) (attempt : Nat) (remaining : Duration)
    (keyLeft : Option Duration) : Duration :=
  let delay := Duration.min (o.backoff attempt) remaining
  match keyLeft with
  | some r => Duration.min delay (r.saturatingAdd (Duration.ofMillis 1))
  | none => delay

/-- One attempt of a cache-backed provider to add `token` under the resource's key, attempt
number `attempt`: `some` answer when the acquire ends with it, a granted lock or nothing once
the time to try is over; `none` when it waited for a release or for its pause to end, and tries
again. -/
def pollTurn (cache released : Nat) (o : CacheLockOptions) (resource token : String)
    (lease timeout : Duration) (started : Nat) (deadline : Option Nat) (attempt : Nat) :
    Act (Option (Option Grant)) := do
  let w ← enable released
  let key := lockKey resource
  let t ← now
  if ← onCache cache (Cache.Store.add key token.toUTF8.toList (some lease) t) then
    dropWaiter w
    return some (some (← grant resource token (t.addOrMax lease) started))
  match timeLeft deadline timeout (← clock) with
  | none =>
    dropWaiter w
    return some none
  | some remaining =>
    let keyLeft ← onCache cache (Cache.Store.expiration key t)
    let tm ← timer (ticks (o.pause attempt remaining keyLeft))
    let _ ← select [.notified w, .timer tm]
    dropTimer tm
    dropWaiter w
    return none

/-- The attempts of a cache-backed provider to add `token` under the resource's key, from
attempt number `attempt` on. -/
def pollCache (cache released : Nat) (o : CacheLockOptions) (resource token : String)
    (lease timeout : Duration) (started : Nat) (deadline : Option Nat) :
    Nat → Nat → Act (Option Grant)
  | 0, _ => stall
  | fuel + 1, attempt => do
    match ← pollTurn cache released o resource token lease timeout started deadline attempt with
    | some answer => return answer
    | none =>
      pollCache cache released o resource token lease timeout started deadline fuel (attempt + 1)

/-- How long a period's counter lives after an attempt at `t`: until a second past the end of
the period. -/
def Bucket.ttl (b : Bucket) (t : Stamp) : Duration :=
  (Duration.ofMillis (b.remaining t.millis)).saturatingAdd (Duration.ofSecs 1)

/-- Count one attempt at `t` in a period's bucket: increment its counter. -/
def Bucket.count (b : Bucket) (resource : String) (t : Stamp) :
    Cache.Op (Except Cache.Store.CounterFault Int) :=
  Cache.Store.increment (b.key resource) 1 (some (b.ttl t)) t

/-- The attempts of a throttling provider: count one grant in the current period's bucket;
within `maxPer` it is granted until the period ends, else wait for the next period. -/
def pollThrottle (cache : Nat) (resource : String) (maxPer periodMs : Nat) (started : Nat)
    (deadline : Option Nat) : Nat → LockM (Option Grant)
  | 0 => onHost stall
  | fuel + 1 => do
    let t ← onHost now
    let b := Bucket.containing t.millis periodMs
    let key := b.key resource
    match ← onHost (onCache cache (b.count resource t)) with
    | .error e => throw (counterError key e)
    | .ok count =>
      if count ≤ maxPer then
        let token ← onHost uuid
        return some (← onHost (grant resource token b.endStamp started))
      let wait := b.remaining (← onHost now).millis + 1
      if let some d := deadline then
        if d < (← onHost clock) + wait then return none
      onHost (sleep wait)
      pollThrottle cache resource maxPer periodMs started deadline fuel

/-- Ask a throttling provider on `cache` for a grant with explicit limits. -/
def throttleWith (cache : Nat) (resource : String) (timeout : Duration) (maxPer : Nat)
    (period : Duration) : LockM (Option Grant) := do
  let periodMs ← ExceptT.mk (pure (ThrottleOptions.periodMillis ⟨maxPer, period⟩))
  let started ← onHost clock
  pollThrottle cache resource maxPer periodMs started (lastTickOf started timeout) forever

namespace Provider

/-- Wait up to the time to try for a lock on `resource`; `none` when none was granted. -/
def acquire (p : Provider) (resource : String) (o : AcquireOptions) : LockM (Option Grant) := do
  match p with
  | .cache store options released _ _ => onHost do
    let token ← uuid
    let started ← clock
    pollCache store released options resource token o.lease o.acquireTimeout started
      (deadlineOf started o.acquireTimeout) forever 0
  | .throttle store options =>
    throttleWith store resource o.acquireTimeout options.maxPerPeriod options.period
  | .null => onHost do
    let token ← uuid
    let t ← now
    return some (← grant resource token (t.addOrMax o.lease) (← clock))

/-- The lock with its lease extended to `ext` from `t`, renewed once more. -/
def extended (l : Grant) (t : Stamp) (ext : Duration) : Grant :=
  { l with leaseExpiresAt := t.addOrMax ext, renewalCount := l.renewalCount + 1 }

/-- Extend a lock's lease to `ext` from now; false when the lock is no longer held. -/
def renew (p : Provider) (l : Grant) (ext : Duration) : LockM (Bool × Grant) := onHost do
  let t ← now
  match p with
  | .cache store _ _ _ _ =>
    let token := l.token.toUTF8.toList
    if ← onCache store (Cache.Store.replaceIfEqual (lockKey l.resource) token token (some ext) t)
    then return (true, extended l t ext)
    else return (false, l)
  | .throttle _ _ => return (true, l)
  | .null => return (true, extended l t ext)

/-- Give a lock up; false when it was no longer held. A cache-backed provider wakes its
waiters and, with a bus, announces the release. -/
def release (p : Provider) (l : Grant) : LockM Bool := onHost do
  match p with
  | .cache store options released announce _ =>
    let t ← now
    let token := l.token.toUTF8.toList
    let done ← onCache store (Cache.Store.removeIfEqual (lockKey l.resource) token t)
    if done then
      notifyWaiters released
      if announce then
        publishJson options.topic (.obj [("resource", .str l.resource), ("token", .str l.token)])
    return done
  | _ => return true

/-- Whether a resource is taken: its key is live, or its current period has no grants
left. -/
def isLocked (p : Provider) (resource : String) : LockM Bool := do
  let t ← onHost now
  match p with
  | .cache store _ _ _ _ => onHost (onCache store (Cache.Store.contains (lockKey resource) t))
  | .throttle store options =>
    let periodMs ← ExceptT.mk (pure options.periodMillis)
    let b := Bucket.containing t.millis periodMs
    match ← onHost (onCache store (Cache.Store.read (b.key resource) t)) with
    | none => return false
    | some v =>
      let count := (Cache.Store.parseCounter v.value).getD 0
      return decide ((options.maxPerPeriod : Int) ≤ count)
  | .null => return false

end Provider

end Backplane.Lock
