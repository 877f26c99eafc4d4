import Backplane.Time.Civil

/-!
# The in-memory cache

A cache maps keys to byte values. An entry may carry an expiry: it is *expired* once the
clock reaches that instant, and an expired entry counts as absent. Expired entries are
dropped when an operation meets them, when the cache is swept, or when room is needed.

A cache may be bounded by a number of items. Inserting a key that is not stored into a full
cache first discards the expired entries and then evicts the entries accessed longest ago,
one at a time, until there is room; a bound of zero keeps one entry.

Every operation takes the current instant. The counters record hits and misses of reads,
writes, and evictions; the item count is the number of stored entries, expired ones
included until they are dropped.
-/

namespace Backplane.Cache

abbrev Bytes := List UInt8

/-- A stored value with its expiry and the times it was created, last written and last
read. -/
structure Entry where
  value : Bytes
  expiresAt : Option Stamp
  createdAt : Stamp
  lastWriteAt : Stamp
  lastAccessAt : Stamp
  deriving Repr, Inhabited, DecidableEq

namespace Entry

/-- A new entry written at `now`. -/
def fresh (value : Bytes) (expiresAt : Option Stamp) (now : Stamp) : Entry :=
  ⟨value, expiresAt, now, now, now⟩

/-- An entry is expired once the clock reaches its expiry. -/
def isExpired (e : Entry) (now : Stamp) : Bool :=
  match e.expiresAt with
  | some t => decide (t ≤ now)
  | none => false

/-- The entry with a new value and expiry, written and read at `now`. -/
def write (e : Entry) (value : Bytes) (expiresAt : Option Stamp) (now : Stamp) : Entry :=
  { e with value, expiresAt, lastWriteAt := now, lastAccessAt := now }

end Entry

/-- A value read from a cache, with its expiry. -/
structure Value where
  value : Bytes
  expiresAt : Option Stamp
  deriving Repr, Inhabited, DecidableEq

/-- The time left before a value expires, zero once it is due; `none` without expiry. -/
def Value.remaining (v : Value) (now : Stamp) : Option Duration :=
  v.expiresAt.map fun t => t.since now

/-- The expiry of a value written at `now` to live for `ttl`; none without a time to live,
or when the expiry lies past the calendar. -/
def expiry (now : Stamp) (ttl : Option Duration) : Option Stamp :=
  ttl.bind now.addDuration?

/-- The counters of a cache. -/
structure Stats where
  items : Nat
  hits : Nat
  misses : Nat
  writes : Nat
  evictions : Nat
  deriving Repr, Inhabited, DecidableEq

/-- The times of an entry. -/
structure Metadata where
  createdAt : Stamp
  lastWriteAt : Stamp
  lastAccessAt : Stamp
  expiresAt : Option Stamp
  deriving Repr, Inhabited, DecidableEq

/-- A cache: its entries in the order they were inserted, its bound, and its counters. -/
structure Store where
  entries : List (String × Entry) := []
  maxItems : Option Nat := none
  hits : Nat := 0
  misses : Nat := 0
  writes : Nat := 0
  evictions : Nat := 0
  deriving Repr, Inhabited

abbrev Op := StateM Store

namespace Store

/-- An empty cache with an optional bound. -/
def empty (maxItems : Option Nat) : Store := { maxItems := maxItems }

/-- The stored entry of a key, expired or not. -/
def find? (s : Store) (key : String) : Option Entry :=
  (s.entries.find? fun p => p.1 == key).map (·.2)

/-- The entries without a key. -/
def erase (s : Store) (key : String) : Store :=
  { s with entries := s.entries.filter fun p => p.1 != key }

/-- The entries with a key's entry replaced in place. -/
def update (s : Store) (key : String) (e : Entry) : Store :=
  { s with entries := s.entries.map fun p => if p.1 == key then (key, e) else p }

/-- The live entry of a key; an expired entry is dropped on the way. -/
def live (key : String) (now : Stamp) : Op (Option Entry) := do
  let s ← get
  match s.find? key with
  | some e =>
    if e.isExpired now then
      set (s.erase key)
      return none
    else return some e
  | none => return none

/-- The key of the entry read longest ago; of several, the first stored. -/
def oldest? : List (String × Entry) → Option (String × Entry)
  | [] => none
  | p :: rest =>
    match oldest? rest with
    | some q => if q.2.lastAccessAt < p.2.lastAccessAt then some q else some p
    | none => some p

/-- Evict entries read longest ago while there are at least `room` of them. -/
def evict (room : Nat) : Nat → Op Unit
  | 0 => pure ()
  | fuel + 1 => do
    let s ← get
    if s.entries.length ≥ room then
      match oldest? s.entries with
      | some (k, _) =>
        set { s.erase k with evictions := s.evictions + 1 }
        evict room fuel
      | none => pure ()
    else pure ()

/-- Store an entry under a key, making room in a bounded cache first. -/
def insert (key : String) (e : Entry) (now : Stamp) : Op Unit := do
  modify fun s => { s with writes := s.writes + 1 }
  let s ← get
  if (s.find? key).isSome then
    set (s.update key e)
  else
    match s.maxItems with
    | some max =>
      if s.entries.length ≥ max then
        modify fun s => { s with entries := s.entries.filter fun p => !p.2.isExpired now }
      let s ← get
      evict (Nat.max max 1) s.entries.length
      modify fun s => { s with entries := s.entries ++ [(key, e)] }
    | none => set { s with entries := s.entries ++ [(key, e)] }

/-- Read a key's value; a hit also marks the entry as read now. -/
def read (key : String) (now : Stamp) : Op (Option Value) := do
  match ← live key now with
  | some e =>
    modify fun s => { (s.update key { e with lastAccessAt := now }) with hits := s.hits + 1 }
    return some ⟨e.value, e.expiresAt⟩
  | none =>
    modify fun s => { s with misses := s.misses + 1 }
    return none

/-- Whether a key is live; counted as a read. -/
def contains (key : String) (now : Stamp) : Op Bool := do
  return (← read key now).isSome

/-- Store a value under a key that is not live; false when it is. -/
def add (key : String) (value : Bytes) (ttl : Option Duration) (now : Stamp) : Op Bool := do
  match ← live key now with
  | some _ => return false
  | none =>
    insert key (Entry.fresh value (expiry now ttl) now) now
    return true

/-- Store a value under a key, over any live value. -/
def put (key : String) (value : Bytes) (ttl : Option Duration) (now : Stamp) : Op Unit := do
  let expiresAt := expiry now ttl
  match ← live key now with
  | some e =>
    modify fun s => { (s.update key (e.write value expiresAt now)) with writes := s.writes + 1 }
  | none => insert key (Entry.fresh value expiresAt now) now

/-- Replace a key's live value when it equals `expected`. -/
def replaceIfEqual (key : String) (expected value : Bytes) (ttl : Option Duration)
    (now : Stamp) : Op Bool := do
  match ← live key now with
  | some e =>
    if e.value == expected then
      modify fun s =>
        { (s.update key (e.write value (expiry now ttl) now)) with writes := s.writes + 1 }
      return true
    else return false
  | none => return false

/-- Remove a key whose live value equals `expected`. -/
def removeIfEqual (key : String) (expected : Bytes) (now : Stamp) : Op Bool := do
  match ← live key now with
  | some e =>
    if e.value == expected then
      modify fun s => s.erase key
      return true
    else return false
  | none => return false

/-! ## Counters -/

def i64Max : Int := Int.pow 2 63 - 1

def i64Min : Int := -Int.pow 2 63

/-- The value of decimal digits. -/
def digitsValue (ds : List UInt8) : Option Nat :=
  if ds.isEmpty then none
  else ds.foldl (fun acc d => acc.bind fun n =>
    if 48 ≤ d && d ≤ 57 then some (n * 10 + (d.toNat - 48)) else none) (some 0)

/-- A 64-bit signed integer written in decimal: an optional sign, then one digit or more. -/
def parseCounter (b : Bytes) : Option Int :=
  let v : Option Int := match b with
    | 45 :: ds => (digitsValue ds).map fun n => -(n : Int)
    | 43 :: ds => (digitsValue ds).map fun n => (n : Int)
    | ds => (digitsValue ds).map fun n => (n : Int)
  v.bind fun i => if i64Min ≤ i && i ≤ i64Max then some i else none

/-- The decimal text of an integer, as bytes. -/
def counterBytes (i : Int) : Bytes := (toString i).toUTF8.toList

/-- Why a counter could not be incremented. -/
inductive CounterFault where
  /-- The live value is not the decimal text of a 64-bit integer. -/
  | notANumber
  /-- The sum leaves the 64-bit range. -/
  | overflow
  deriving Repr, Inhabited, DecidableEq

/-- Add `by` to the counter stored under a key; an absent key starts at zero. A live counter
keeps its expiry unless a time to live is given. -/
def increment (key : String) (by_ : Int) (ttl : Option Duration) (now : Stamp) :
    Op (Except CounterFault Int) := do
  let expiresAt := expiry now ttl
  match ← live key now with
  | some e =>
    match parseCounter e.value with
    | none => return .error .notANumber
    | some current =>
      let next := current + by_
      if next < i64Min || i64Max < next then return .error .overflow
      let keep := if ttl.isSome then expiresAt else e.expiresAt
      modify fun s =>
        { (s.update key (e.write (counterBytes next) keep now)) with writes := s.writes + 1 }
      return .ok next
  | none =>
    insert key (Entry.fresh (counterBytes by_) expiresAt now) now
    return .ok by_

/-! ## Removal and expiry -/

/-- Remove a key; true when it was live. -/
def remove (key : String) (now : Stamp) : Op Bool := do
  let s ← get
  match s.find? key with
  | some e =>
    set (s.erase key)
    return !e.isExpired now
  | none => return false

/-- The time a key has left to live; none when it is not live or never expires. -/
def expiration (key : String) (now : Stamp) : Op (Option Duration) := do
  return (← live key now).bind fun e => Value.remaining ⟨e.value, e.expiresAt⟩ now

/-- Give a live key a new time to live. -/
def setExpiration (key : String) (ttl : Duration) (now : Stamp) : Op Bool := do
  match ← live key now with
  | some e =>
    modify fun s => s.update key { e with expiresAt := expiry now (some ttl) }
    return true
  | none => return false

/-- Remove keys; the count of those that were live. -/
def removeAll (keys : List String) (now : Stamp) : Op Nat :=
  keys.foldlM (fun n k => do return if ← remove k now then n + 1 else n) 0

/-- Remove the keys that start with a prefix, expired or not; their count. -/
def removeByPrefix (pre : String) : Op Nat := do
  let s ← get
  let kept := s.entries.filter fun p => !p.1.startsWith pre
  set { s with entries := kept }
  return s.entries.length - kept.length

/-- Remove every entry; their count. -/
def flush : Op Nat := do
  let s ← get
  set { s with entries := [] }
  return s.entries.length

/-- Drop the expired entries; their count. -/
def sweep (now : Stamp) : Op Nat := do
  let s ← get
  let kept := s.entries.filter fun p => !p.2.isExpired now
  set { s with entries := kept }
  return s.entries.length - kept.length

/-- The times of a live key. -/
def metadata (key : String) (now : Stamp) : Op (Option Metadata) := do
  return (← live key now).map fun e => ⟨e.createdAt, e.lastWriteAt, e.lastAccessAt, e.expiresAt⟩

/-- The counters, with the number of stored entries. -/
def stats (s : Store) : Stats := ⟨s.entries.length, s.hits, s.misses, s.writes, s.evictions⟩

end Store

end Backplane.Cache
