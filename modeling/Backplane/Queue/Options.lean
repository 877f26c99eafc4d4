import Backplane.Config
import Backplane.Errors
import Backplane.Time.Civil

/-!
# Queue options

A queue has a name, a visibility timeout (how long a delivered entry stays leased), a number
of delivery attempts before an entry is parked as a dead letter, a retry delay that doubles
with each attempt up to a ceiling, and the interval of the background sweep that reclaims
expired leases.
-/

namespace Backplane.Queue

/-- The settings of a queue. -/
structure Options where
  name : String
  visibilityTimeout : Duration
  maxAttempts : Nat
  retryDelay : Duration
  maxRetryDelay : Duration
  sweepInterval : Duration
  deriving Repr, Inhabited

namespace Options

/-- Defaults: five minutes of visibility, three attempts, no retry delay (at most an hour),
and a sweep every thirty seconds. -/
def named (name : String) : Options :=
  { name, visibilityTimeout := Duration.ofSecs 300, maxAttempts := 3,
    retryDelay := Duration.zero, maxRetryDelay := Duration.ofSecs 3600,
    sweepInterval := Duration.ofSecs 30 }

/-- The options of a queue named `default`. -/
def default : Options := named "default"

/-- Options read from `{prefix}.{name}.{field}` settings, each defaulting when absent or
unreadable. -/
def fromConfig (c : Config) (pre name : String) : Options :=
  let key (field : String) := pre ++ "." ++ name ++ "." ++ field
  let d := named name
  { name
    visibilityTimeout := (c.getMillis (key "visibility_timeout_ms")).getD d.visibilityTimeout
    maxAttempts := (c.getU32 (key "max_attempts")).getD d.maxAttempts
    retryDelay := (c.getMillis (key "retry_delay_ms")).getD d.retryDelay
    maxRetryDelay := (c.getMillis (key "max_retry_delay_ms")).getD d.maxRetryDelay
    sweepInterval := (c.getMillis (key "sweep_interval_ms")).getD d.sweepInterval }

/-- Options are usable when an entry gets at least one attempt, and the visibility timeout and
the sweep interval are positive; the first broken rule is reported. -/
def validate (o : Options) : Except QueueError Unit :=
  if o.maxAttempts = 0 then .error (.invalidOptions "max_attempts must be at least 1")
  else if o.visibilityTimeout.isZero then .error (.invalidOptions "visibility_timeout must be positive")
  else if o.sweepInterval.isZero then .error (.invalidOptions "sweep_interval must be positive")
  else .ok ()

/-- The delay before an entry abandoned after `attempts` deliveries is offered again: none
without a retry delay, else the retry delay doubled per attempt after the first (at most 31
times, saturating), capped by the ceiling. -/
def retryDelayFor (o : Options) (attempts : Nat) : Duration :=
  if o.retryDelay.isZero then Duration.zero
  else Duration.min (o.retryDelay.saturatingMul (Nat.pow 2 (Nat.min (attempts - 1) 31))) o.maxRetryDelay

end Options

end Backplane.Queue
