import Backplane.Config
import Backplane.Errors

/-!
# Lock options

How long to wait for a lock and how long to hold it (`AcquireOptions`); how a cache-backed
provider polls and where it announces releases (`CacheLockOptions`); how many grants a
throttling provider gives per period (`ThrottleOptions`).
-/

namespace Backplane.Lock

/-- How long to keep trying for a lock, and how long the lock lasts once held. -/
structure AcquireOptions where
  acquireTimeout : Duration
  lease : Duration
  deriving Repr, Inhabited

namespace AcquireOptions

/-- Thirty seconds of trying, twenty seconds of lease. -/
def default : AcquireOptions := ⟨Duration.ofSecs 30, Duration.ofSecs 20⟩

/-- Options read from `{prefix}.acquire_timeout_ms` and `{prefix}.lease_ms`. -/
def fromConfig (c : Config) (pre : String) : AcquireOptions :=
  { acquireTimeout := (c.getMillis (pre ++ ".acquire_timeout_ms")).getD default.acquireTimeout
    lease := (c.getMillis (pre ++ ".lease_ms")).getD default.lease }

end AcquireOptions

/-- The topic on which cache-backed providers announce released locks. -/
def releasedTopic : String := "dog.locks.released"

/-- Polling of a cache-backed provider: the first and the longest pause between attempts, and
the topic of release announcements. -/
structure CacheLockOptions where
  initialBackoff : Duration
  maxBackoff : Duration
  topic : String
  deriving Repr, Inhabited

namespace CacheLockOptions

/-- 25 ms growing to at most one second, announced on `releasedTopic`. -/
def default : CacheLockOptions := ⟨Duration.ofMillis 25, Duration.ofSecs 1, releasedTopic⟩

/-- Options read from `{prefix}.initial_backoff_ms`, `{prefix}.max_backoff_ms` and
`{prefix}.topic`. -/
def fromConfig (c : Config) (pre : String) : CacheLockOptions :=
  { initialBackoff := (c.getMillis (pre ++ ".initial_backoff_ms")).getD default.initialBackoff
    maxBackoff := (c.getMillis (pre ++ ".max_backoff_ms")).getD default.maxBackoff
    topic := (c.get? (pre ++ ".topic")).getD default.topic }

/-- The first pause must be positive and no longer than the longest. -/
def validate (o : CacheLockOptions) : Except LockError Unit :=
  if o.initialBackoff.isZero || o.maxBackoff < o.initialBackoff then
    .error (.invalidOptions ("backoff must satisfy 0 < initial (" ++ o.initialBackoff.text ++
      ") <= max (" ++ o.maxBackoff.text ++ ")"))
  else .ok ()

/-- The pause after `attempt` failed attempts: the first pause doubled per attempt (at most
16 times), capped by the longest. -/
def backoff (o : CacheLockOptions) (attempt : Nat) : Duration :=
  Duration.min (o.initialBackoff.saturatingMul (Nat.pow 2 (Nat.min attempt 16))) o.maxBackoff

end CacheLockOptions

/-- The grants of a throttling provider: at most `maxPerPeriod` in each period. -/
structure ThrottleOptions where
  maxPerPeriod : Nat
  period : Duration
  deriving Repr, Inhabited

namespace ThrottleOptions

/-- A hundred grants per fifteen minutes. -/
def default : ThrottleOptions := ⟨100, Duration.ofSecs 900⟩

/-- Options read from `{prefix}.max_per_period` and `{prefix}.period_ms`. -/
def fromConfig (c : Config) (pre : String) : ThrottleOptions :=
  { maxPerPeriod := (c.getU32 (pre ++ ".max_per_period")).getD default.maxPerPeriod
    period := (c.getMillis (pre ++ ".period_ms")).getD default.period }

/-- The period in whole milliseconds, which must be positive and fit 63 bits. -/
def periodMillis (o : ThrottleOptions) : Except LockError Nat :=
  let ms := o.period.millis
  if 0 < ms && ms < Nat.pow 2 63 then .ok ms
  else .error (.invalidOptions ("throttle period must be at least 1ms, got " ++ o.period.text))

end ThrottleOptions

end Backplane.Lock
