import Backplane.Host

/-!
# The queue on a host

The operations of the host's in-memory queue, with the notifications and events they cause.

Adding an entry, bringing one back from the dead letters, and abandoning one that goes back in
line wake the consumers waiting for work. A consumer waiting for an entry first reclaims the
leases that ran out, then takes the first available entry; when there is none it waits for a
wake-up, for the end of its wait, or for the next instant at which an entry turns visible or
a lease runs out, whichever comes first. Reaping reclaims expired leases without taking
anything, and wakes the waiting consumers when it reclaimed some.
-/

namespace Backplane.Queue

open Backplane.Fiber Prog Host

/-- Run a change of the queue's store. -/
def onStore {α : Type} (f : Store → Store × α) : Act α :=
  modifyGet fun h =>
    let (s, a) := f h.queue.store
    (a, { h with queue := { h.queue with store := s } })

def store : Act Store := do return (← get).queue.store

def options : Act Options := do return (← get).queue.options

/-- Wake the consumers waiting for work. -/
def wakeConsumers : Act Unit := do notifyWaiters (← get).queue.available

/-- Add an entry with a payload; its id. -/
def push (payload : Bytes) : Act String := do
  let id ← uuid
  let t ← now
  let ev ← onStore (Store.enqueue id payload t)
  wakeConsumers
  emitQueueEvents [ev]
  return id

/-- Count the reclaimed leases among events. -/
def timeouts (evs : List Event) : Nat := (evs.filter Event.isTimeout).length

/-- One attempt to take an entry at instant `t`: reclaim what expired, lease the first
available entry, and report the reclaimed events and, when nothing was leased, the next
change. -/
def attempt (t : Stamp) : Act (List Event × Option Leased × Option Stamp) := do
  let o ← options
  let reclaimed ← onStore (Store.reclaimExpired o t)
  let leased ← match (← store).firstAvailable? t with
    | some id => do
      let token ← uuid
      onStore (Store.lease o id token t)
    | none => pure none
  let s ← store
  let next := if leased.isNone then s.nextChange? else none
  onStore fun s => (s.countTimeouts (timeouts reclaimed), ())
  return (reclaimed, leased, next)

/-- How long a waiting consumer sleeps: the time left to wait, cut to a millisecond past the
next change when there is one, `nextLeft` from now. -/
def sleepSpan (remaining : Duration) (nextLeft : Option Duration) : Duration :=
  match nextLeft with
  | some left => Duration.min remaining (left.saturatingAdd (Duration.ofMillis 1))
  | none => remaining

/-- One pass of a consumer waiting for an entry until the clock reads `deadline` (for ever
without one): `some` answer when the wait ends with it, the entry it leased or nothing once
the time is over; `none` when it slept until a wake-up, the end of its wait or the next
change, and passes again. -/
def pullTurn (wait : Duration) (deadline : Option Nat) : Act (Option (Option Leased)) := do
  let w ← enable (← get).queue.available
  let t ← now
  let (reclaimed, leased, next) ← attempt t
  emitQueueEvents reclaimed
  match leased with
  | some e =>
    onStore fun s => (s.countDequeued, ())
    emitQueueEvents [.dequeued e.id e.attempts e.leaseUntil t]
    dropWaiter w
    return some (some e)
  | none =>
    match timeLeft deadline wait (← clock) with
    | none =>
      dropWaiter w
      return some none
    | some remaining =>
      let nextLeft ← next.mapM fun at_ => return at_.since (← now)
      let tm ← timer (ticks (sleepSpan remaining nextLeft))
      let _ ← select [.notified w, .timer tm]
      dropTimer tm
      dropWaiter w
      return none

/-- Wait for an entry until the clock reads `deadline` (forever without one), taking it
when one is available. -/
def waitForEntry (wait : Duration) (deadline : Option Nat) : Nat → Act (Option Leased)
  | 0 => stall
  | fuel + 1 => do
    match ← pullTurn wait deadline with
    | some answer => return answer
    | none => waitForEntry wait deadline fuel

/-- Seconds of a wait beyond which the monotonic clock has no deadline for it. -/
def unboundedSecs : Nat := Nat.pow 2 62

/-- Wait up to `wait` for an entry and lease it. -/
def pull (wait : Duration) : Act (Option Leased) := do
  let c ← clock
  let deadline := if wait.secs < unboundedSecs then some (c + ticks wait) else none
  waitForEntry wait deadline forever

/-- Hand back a leased entry the token owns, with an optional reason: it goes back in line,
or to the dead letters after its last attempt. False when the token does not own it. -/
def giveBack (id token : String) (reason : Option String) : Act Bool := do
  let t ← now
  let o ← options
  match ← onStore (Store.abandon o id token reason t) with
  | none => return false
  | some evs =>
    unless evs.any Event.isDeadLetter do wakeConsumers
    emitQueueEvents evs
    return true

/-- Wait up to `wait` for an entry whose payload reads as `item`: the entry with its value.
An entry that does not read is handed back with the reading error as its reason, and the
error is returned. -/
def pullTyped (item : Json.Shape) (wait : Duration) :
    Act (Except QueueError (Option (Leased × Json))) := do
  match ← pull wait with
  | none => return .ok none
  | some e =>
    match Wire.decode item ⟨e.payload.toArray⟩ with
    | .ok v => return .ok (some (e, v))
    | .error err =>
      let _ ← giveBack e.id e.token (some err.message)
      return .error (.serialization err)

/-- Extend a lease the token owns to `ext` from now. -/
def renew (id token : String) (ext : Duration) : Act Bool := do
  let t ← now
  match ← onStore (Store.renew id token ext t) with
  | some ev =>
    emitQueueEvents [ev]
    return true
  | none => return false

/-- Remove an entry the token owns. -/
def complete (id token : String) : Act Bool := do
  let t ← now
  match ← onStore (Store.complete id token t) with
  | some ev =>
    emitQueueEvents [ev]
    return true
  | none => return false

/-- Bring a dead letter back to the end of the line. -/
def retryDeadLetter (id : String) : Act Bool := do
  let t ← now
  match ← onStore (Store.retryDeadLetter id t) with
  | some ev =>
    wakeConsumers
    emitQueueEvents [ev]
    return true
  | none => return false

/-- Reclaim the leases expired at `t`; how many were reclaimed. -/
def reap (t : Stamp) : Act Nat := do
  let o ← options
  let evs ← onStore (Store.reclaimExpired o t)
  let n := timeouts evs
  onStore fun s => (s.countTimeouts n, ())
  if n > 0 then wakeConsumers
  emitQueueEvents evs
  return n

/-- Reap now and then every `period` milliseconds until the token is cancelled; a period
of zero ends at once. -/
def reaper (token period : Nat) : Nat → Act Json
  | 0 => pure .null
  | fuel + 1 => do
    if period == 0 then return .null
    let _ ← reap (← now)
    let tm ← timer period
    let i ← waitAny [.timer tm, .cancelled token]
    dropTimer tm
    if i == 1 then return .null
    reaper token period fuel

end Backplane.Queue
