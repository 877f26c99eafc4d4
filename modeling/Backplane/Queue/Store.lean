import Backplane.Queue.Record

/-!
# The queue store

The state of an in-memory queue: its records (in the order they were created), the line of
entries waiting to be delivered, the list of dead letters in the order they were parked, and
the counters.

Delivery takes the first entry of the line whose time has come. An entry whose lease runs out
is *reclaimed*: it goes back to the end of the line (offered again after the retry delay),
or, when it has used its last attempt, it is parked as a dead letter. An abandoned entry is
treated the same way. Every change reports the queue events it causes.
-/

namespace Backplane.Queue

/-- The error recorded for an entry whose lease ran out. -/
def leaseExpiredReason : String := "visibility timeout expired"

/-- The state of a queue. -/
structure Store where
  records : List Record := []
  ready : List String := []
  dead : List String := []
  counters : Counters := {}
  deriving Repr, Inhabited

namespace Store

def find? (s : Store) (id : String) : Option Record := s.records.find? (·.id == id)

/-- The store with an entry's record changed. -/
def modifyRecord (s : Store) (id : String) (f : Record → Record) : Store :=
  { s with records := s.records.map fun r => if r.id == id then f r else r }

/-- Add a new entry at the end of the line. -/
def enqueue (id : String) (payload : Bytes) (now : Stamp) (s : Store) : Store × Event :=
  ({ s with records := s.records ++ [Record.fresh id payload now], ready := s.ready ++ [id],
            counters := { s.counters with enqueued := s.counters.enqueued + 1 } },
   .enqueued id now)

/-- Hand a leased entry back: park it when it has used its last attempt, otherwise put it
at the end of the line after the retry delay. A lease that ran out is reported as such; an
abandoned entry that goes back in line is reported as abandoned. -/
def release (o : Options) (id : String) (reason : Option String) (timedOut : Bool)
    (now : Stamp) (s : Store) : Store × List Event :=
  match s.find? id with
  | none => (s, [])
  | some r =>
    let expired : List Event := if timedOut then [.leaseExpired id r.attempts now] else []
    if r.attempts ≥ o.maxAttempts then
      ({ s.modifyRecord id (·.deadLetter now reason) with dead := s.dead ++ [id] },
       expired ++ [.deadLettered id r.attempts reason now])
    else
      let retryAt := now.addOrMax (o.retryDelayFor r.attempts)
      ({ s.modifyRecord id (·.requeue retryAt reason) with ready := s.ready ++ [id] },
       expired ++ (if timedOut then [] else [.abandoned id r.attempts reason retryAt now]))

/-- Reclaim every entry whose lease has run out, in the order the entries were created. -/
def reclaimExpired (o : Options) (now : Stamp) (s : Store) : Store × List Event :=
  let expired := (s.records.filter (·.leaseExpired now)).map (·.id)
  expired.foldl (fun (acc : Store × List Event) id =>
    let (s', evs) := release o id (some leaseExpiredReason) true now acc.1
    (s', acc.2 ++ evs)) (s, [])

/-- The first entry of the line that can be delivered now. -/
def firstAvailable? (s : Store) (now : Stamp) : Option String :=
  s.ready.find? fun id => (s.find? id).any (·.isAvailable now)

/-- Lease an entry of the line to a new token for the visibility timeout. -/
def lease (o : Options) (id token : String) (now : Stamp) (s : Store) : Store × Option Leased :=
  match s.find? id with
  | none => (s, none)
  | some r =>
    let leaseUntil := now.addOrMax o.visibilityTimeout
    let r' := r.startLease token leaseUntil now
    ({ s.modifyRecord id fun _ => r' with ready := s.ready.erase id },
     some ⟨id, r'.payload, r'.attempts, r'.createdAt, now, token, leaseUntil⟩)

/-- The next instant at which an entry becomes available or a lease runs out. -/
def nextChange? (s : Store) : Option Stamp :=
  let times := s.records.filterMap fun r =>
    match r.state with
    | .enqueued => some r.availableAt
    | .dequeued t => some t
    | .deadLettered _ => none
  times.foldl (fun acc t => match acc with
    | some u => if t < u then some t else some u
    | none => some t) none

/-- Extend a lease the token owns to `extension` from now. -/
def renew (id token : String) (extension : Duration) (now : Stamp) (s : Store) :
    Store × Option Event :=
  let leaseUntil := now.addOrMax extension
  match s.find? id with
  | some r =>
    if r.isOwnedBy token now then
      (s.modifyRecord id (·.extendLease leaseUntil), some (.lockRenewed id leaseUntil now))
    else (s, none)
  | none => (s, none)

/-- Remove an entry whose lease the token owns. -/
def complete (id token : String) (now : Stamp) (s : Store) : Store × Option Event :=
  match s.find? id with
  | some r =>
    if r.isOwnedBy token now then
      ({ s with records := s.records.filter (·.id != id),
                counters := { s.counters with completed := s.counters.completed + 1 } },
       some (.completed id now))
    else (s, none)
  | none => (s, none)

/-- Hand back an entry whose lease the token owns, with an optional reason; `none` when the
token does not own it. -/
def abandon (o : Options) (id token : String) (reason : Option String) (now : Stamp)
    (s : Store) : Store × Option (List Event) :=
  match s.find? id with
  | some r =>
    if r.isOwnedBy token now then
      let (s', evs) := release o id reason false now s
      ({ s' with counters := { s'.counters with
            abandoned := s'.counters.abandoned + 1,
            errors := if reason.isSome then s'.counters.errors + 1 else s'.counters.errors } },
       some evs)
    else (s, none)
  | none => (s, none)

/-- The dead letters, in the order they were parked. -/
def deadLetters (s : Store) : List DeadLetter :=
  s.dead.filterMap fun id => (s.find? id).bind fun r =>
    match r.state with
    | .deadLettered t => some ⟨r.id, r.payload, r.attempts, r.lastError, r.createdAt, t⟩
    | _ => none

/-- Bring a dead letter back to the end of the line. -/
def retryDeadLetter (id : String) (now : Stamp) (s : Store) : Store × Option Event :=
  match s.find? id with
  | some r =>
    match r.state with
    | .deadLettered _ =>
      ({ s.modifyRecord id (·.revive now) with
           dead := s.dead.filter (· != id), ready := s.ready ++ [id],
           counters := { s.counters with enqueued := s.counters.enqueued + 1 } },
       some (.enqueued id now))
    | _ => (s, none)
  | none => (s, none)

/-- Let a delivered entry's lease run out: it ends a second before now. -/
def forceLeaseExpiry (id : String) (now : Stamp) (s : Store) : Store × Bool :=
  match s.find? id with
  | some r =>
    match r.state with
    | .dequeued _ => (s.modifyRecord id (·.extendLease ⟨now.nanos - 1000000000⟩), true)
    | _ => (s, false)
  | none => (s, false)

/-- Count one more lease that ran out. -/
def countTimeouts (n : Nat) (s : Store) : Store :=
  { s with counters := { s.counters with timeouts := s.counters.timeouts + n } }

/-- Count one more delivery. -/
def countDequeued (s : Store) : Store :=
  { s with counters := { s.counters with dequeued := s.counters.dequeued + 1 } }

/-- The entries by state, with the counters. -/
def stats (s : Store) : Stats :=
  let count (p : State → Bool) := (s.records.filter fun r => p r.state).length
  ⟨count (· matches .enqueued), count (· matches .dequeued _),
   count (· matches .deadLettered _), s.counters⟩

end Store

end Backplane.Queue
