import Backplane.Lock.Options

/-!
# Runner options

How long a runner waits for an entry, how it takes the entry's lock, and how often it renews
the leases of the entry it is processing. Without an explicit interval, renewal happens at
half the shorter of the leases held, but never more often than every 10 ms.
-/

namespace Backplane.Jobs

/-- The settings of a job runner. -/
structure RunnerOptions where
  dequeueWait : Duration
  lock : Lock.AcquireOptions
  renewalInterval : Option Duration
  deriving Repr, Inhabited

namespace RunnerOptions

/-- A second of waiting, the default lock options, and renewal by the leases. -/
def default : RunnerOptions := ⟨Duration.ofSecs 1, Lock.AcquireOptions.default, none⟩

/-- Options read from `{prefix}.dequeue_wait_ms`, `{prefix}.lock.*` and
`{prefix}.renewal_interval_ms`. -/
def fromConfig (c : Config) (pre : String) : RunnerOptions :=
  { dequeueWait := (c.getMillis (pre ++ ".dequeue_wait_ms")).getD default.dequeueWait
    lock := Lock.AcquireOptions.fromConfig c (pre ++ ".lock")
    renewalInterval := c.getMillis (pre ++ ".renewal_interval_ms") }

/-- A given renewal interval and the lock lease must be positive. -/
def validate (o : RunnerOptions) : Except JobError Unit :=
  if o.renewalInterval.any Duration.isZero then
    .error (.invalidOptions "renewal_interval must be positive")
  else if o.lock.lease.isZero then .error (.invalidOptions "lock lease must be positive")
  else .ok ()

/-- The shortest renewal interval chosen from the leases. -/
def minRenewal : Duration := Duration.ofMillis 10

/-- The renewal interval for an entry leased for `queueLease`, with or without a lock. -/
def renewalFor (o : RunnerOptions) (queueLease : Duration) (locked : Bool) : Duration :=
  match o.renewalInterval with
  | some i => i
  | none =>
    let shorter := if locked then Duration.min queueLease o.lock.lease else queueLease
    Duration.maxOf shorter.half minRenewal

end RunnerOptions

end Backplane.Jobs
