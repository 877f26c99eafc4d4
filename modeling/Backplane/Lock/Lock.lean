import Backplane.Lock.Options
import Backplane.Time.Civil

/-!
# Locks and providers

A lock is granted on a resource to a fresh token, with the instant it was granted, the end of
its lease, how long the caller waited and how often it was renewed.

Three providers grant locks:

* a *cache-backed* provider stores the token under `lock:{resource}` with the lease as time to
  live, adds it only when no live token is stored, and polls with backoff while the resource
  is taken; releases wake the local waiters and, with a bus, are announced to every provider
  listening on the release topic;
* a *throttling* provider grants at most a number of locks per period: each attempt counts
  in the bucket of the period it falls in, `throttle:{resource}:{start}`, and a refused
  attempt waits for the next period;
* the *null* provider grants every request.
-/

namespace Backplane.Lock

/-- A granted lock: the lease a provider handed out. -/
structure Grant where
  resource : String
  token : String
  acquiredAt : Stamp
  leaseExpiresAt : Stamp
  timeWaited : Duration
  renewalCount : Nat
  deriving Repr, Inhabited, DecidableEq

/-- A lock has expired once the clock reaches the end of its lease. -/
def Grant.isExpired (l : Grant) (now : Stamp) : Bool := decide (l.leaseExpiresAt ≤ now)

/-- The cache key under which a resource's lock token is stored. -/
def lockKey (resource : String) : String := "lock:" ++ resource

/-- The period of a throttle that contains an instant, in milliseconds since the epoch. -/
structure Bucket where
  startMs : Int
  endMs : Int
  deriving Repr, Inhabited, DecidableEq

namespace Bucket

/-- The period of length `periodMs` containing `nowMs`; periods start at multiples of their
length. -/
def containing (nowMs : Int) (periodMs : Nat) : Bucket :=
  let start := nowMs - nowMs % (periodMs : Int)
  ⟨start, start + periodMs⟩

/-- The cache key counting the grants of a resource in a period. -/
def key (b : Bucket) (resource : String) : String :=
  "throttle:" ++ resource ++ ":" ++ toString b.startMs

/-- Milliseconds from `nowMs` to the end of the period, zero past it. -/
def remaining (b : Bucket) (nowMs : Int) : Nat := (b.endMs - nowMs).toNat

/-- The end of the period as an instant; past the calendar, its last instant. -/
def endStamp (b : Bucket) : Stamp :=
  let t := Stamp.ofMillis b.endMs
  if t.inRange then t else Stamp.maxUtc

end Bucket

/-- A lock provider. -/
inductive Provider where
  /-- Locks stored in a cache, with a notification object for local releases; `announce`
  when releases are published on the bus, `subscription` while it listens for them. -/
  | cache (cache : Nat) (options : CacheLockOptions) (released : Nat) (announce : Bool)
      (subscription : Option Nat)
  /-- At most `options.maxPerPeriod` grants per period, counted in a cache. -/
  | throttle (cache : Nat) (options : ThrottleOptions)
  /-- Every request granted. -/
  | null
  deriving Repr, Inhabited

end Backplane.Lock
