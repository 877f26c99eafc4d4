import Backplane.Queue.Options

/-!
# Queue entries

An entry holds a payload and moves between three states: *enqueued* (waiting in line, and
offered once its availability time has come), *dequeued* (leased to one consumer until its
lease runs out) and *dead-lettered* (parked after its last attempt). The record keeps the
number of deliveries, the creation and availability times, the time of the last delivery, the
token of the current lease and the last error reported for it.

What happens to entries is announced as queue events, and a queue keeps counters of its
operations.
-/

namespace Backplane.Queue

abbrev Bytes := List UInt8

/-- The state of an entry. -/
inductive State where
  /-- Waiting in line. -/
  | enqueued
  /-- Leased until the given instant. -/
  | dequeued (leaseUntil : Stamp)
  /-- Parked as a dead letter at the given instant. -/
  | deadLettered (at_ : Stamp)
  deriving Repr, Inhabited, DecidableEq

/-- The name of a state. -/
def State.name : State → String
  | .enqueued => "enqueued"
  | .dequeued _ => "dequeued"
  | .deadLettered _ => "dead_lettered"

/-- A stored entry. -/
structure Record where
  id : String
  payload : Bytes
  state : State
  attempts : Nat
  createdAt : Stamp
  availableAt : Stamp
  dequeuedAt : Option Stamp
  leaseToken : Option String
  lastError : Option String
  deriving Repr, Inhabited, DecidableEq

namespace Record

/-- A new entry, waiting in line from `now`. -/
def fresh (id : String) (payload : Bytes) (now : Stamp) : Record :=
  ⟨id, payload, .enqueued, 0, now, now, none, none, none⟩

/-- An entry can be delivered when it waits in line and its time has come. -/
def isAvailable (r : Record) (now : Stamp) : Bool :=
  match r.state with
  | .enqueued => decide (r.availableAt ≤ now)
  | _ => false

/-- A lease has run out once the clock reaches its end. -/
def leaseExpired (r : Record) (now : Stamp) : Bool :=
  match r.state with
  | .dequeued t => decide (t ≤ now)
  | _ => false

/-- A token owns an entry while the entry's unexpired lease carries it. -/
def isOwnedBy (r : Record) (token : String) (now : Stamp) : Bool :=
  match r.state with
  | .dequeued t => decide (now < t) && r.leaseToken == some token
  | _ => false

/-- Lease the entry to a token until `leaseUntil`, counting one more delivery. -/
def startLease (r : Record) (token : String) (leaseUntil now : Stamp) : Record :=
  { r with state := .dequeued leaseUntil, attempts := r.attempts + 1,
           leaseToken := some token, dequeuedAt := some now }

/-- Move the end of the lease. -/
def extendLease (r : Record) (leaseUntil : Stamp) : Record :=
  { r with state := .dequeued leaseUntil }

/-- Put the entry back in line from `availableAt`, keeping the last error unless a new one
is given. -/
def requeue (r : Record) (availableAt : Stamp) (error : Option String) : Record :=
  { r with state := .enqueued, availableAt, leaseToken := none,
           lastError := if error.isSome then error else r.lastError }

/-- Park the entry as a dead letter at `now`. -/
def deadLetter (r : Record) (now : Stamp) (error : Option String) : Record :=
  { r with state := .deadLettered now, leaseToken := none,
           lastError := if error.isSome then error else r.lastError }

/-- Bring a dead letter back into line with its attempts reset. -/
def revive (r : Record) (now : Stamp) : Record :=
  { r with state := .enqueued, attempts := 0, availableAt := now, dequeuedAt := none }

end Record

/-- An entry as delivered to a consumer. -/
structure Leased where
  id : String
  payload : Bytes
  attempts : Nat
  enqueuedAt : Stamp
  dequeuedAt : Stamp
  token : String
  leaseUntil : Stamp
  deriving Repr, Inhabited, DecidableEq

/-- A parked entry, as listed among the dead letters. -/
structure DeadLetter where
  id : String
  payload : Bytes
  attempts : Nat
  reason : Option String
  createdAt : Stamp
  deadLetteredAt : Stamp
  deriving Repr, Inhabited, DecidableEq

/-- What happened to an entry, and when. -/
inductive Event where
  | enqueued (id : String) (at_ : Stamp)
  | dequeued (id : String) (attempts : Nat) (leaseUntil : Stamp) (at_ : Stamp)
  | lockRenewed (id : String) (leaseUntil : Stamp) (at_ : Stamp)
  | completed (id : String) (at_ : Stamp)
  | abandoned (id : String) (attempts : Nat) (reason : Option String) (retryAt : Stamp)
      (at_ : Stamp)
  | leaseExpired (id : String) (attempts : Nat) (at_ : Stamp)
  | deadLettered (id : String) (attempts : Nat) (reason : Option String) (at_ : Stamp)
  deriving Repr, Inhabited, DecidableEq

/-- The name of an event. -/
def Event.name : Event → String
  | .enqueued .. => "enqueued"
  | .dequeued .. => "dequeued"
  | .lockRenewed .. => "lock_renewed"
  | .completed .. => "completed"
  | .abandoned .. => "abandoned"
  | .leaseExpired .. => "lease_expired"
  | .deadLettered .. => "dead_lettered"

/-- Whether an event reports a lease that ran out. -/
def Event.isTimeout : Event → Bool
  | .leaseExpired .. => true
  | _ => false

/-- Whether an event reports a dead letter. -/
def Event.isDeadLetter : Event → Bool
  | .deadLettered .. => true
  | _ => false

/-- Counts of a queue's operations since it was created or deleted. -/
structure Counters where
  enqueued : Nat := 0
  dequeued : Nat := 0
  completed : Nat := 0
  abandoned : Nat := 0
  timeouts : Nat := 0
  errors : Nat := 0
  deriving Repr, Inhabited, DecidableEq

/-- A queue's entries by state, with its counters. -/
structure Stats where
  queued : Nat
  working : Nat
  deadLettered : Nat
  counters : Counters
  deriving Repr, Inhabited, DecidableEq

/-- The entries a queue holds in any state. -/
def Stats.totalHeld (s : Stats) : Nat := s.queued + s.working + s.deadLettered

end Backplane.Queue
