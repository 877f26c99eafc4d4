import Mathlib.Logic.Relation
import Backplane.Proofs.Queue.Store

/-!
# An in-memory queue over time

The calls an in-memory queue serves, each atomic on the store and made at the clock's instant,
and the steps of a queue: a call, or the clock moving forward. A world keeps, beside the store
and the clock, the events the queue's listeners heard and the deliveries made so far, each
an entry with the lease token it was handed out under.

Ids and lease tokens are drawn fresh (`Op.Fresh`): a new entry gets an id no stored entry
has, and every delivery a token never handed out before.
-/

namespace Backplane.Queue

/-- A call on an in-memory queue. -/
inductive Op where
  /-- Add an entry under a new id. -/
  | enqueue (id : String) (payload : Bytes)
  /-- One attempt of a waiting consumer, with a new lease token. -/
  | take (token : String)
  /-- Extend a lease. -/
  | renew (id token : String) (ext : Duration)
  /-- Remove an entry. -/
  | complete (id token : String)
  /-- Hand an entry back. -/
  | abandon (id token : String) (reason : Option String)
  /-- Bring a dead letter back into line. -/
  | retryDeadLetter (id : String)
  /-- Reclaim the leases run out at an instant. -/
  | reap (at_ : Stamp)
  /-- Let a lease run out. -/
  | forceLeaseExpiry (id : String)
  /-- Drop every entry and reset the counters. -/
  | deleteQueue
  deriving Repr, Inhabited

namespace Op

/-- What a call does to the store at instant `now`: the new store and the events it
reports. -/
def run (o : Options) (now : Stamp) (s : Store) : Op → Store × List Event
  | .enqueue id payload => let r := s.enqueue id payload now; (r.1, [r.2])
  | .take token => let r := s.take o token now; (r.1, r.2.1)
  | .renew id token ext => let r := s.renew id token ext now; (r.1, r.2.toList)
  | .complete id token => let r := s.complete id token now; (r.1, r.2.toList)
  | .abandon id token reason => let r := s.abandon o id token reason now; (r.1, r.2.getD [])
  | .retryDeadLetter id => let r := s.retryDeadLetter id now; (r.1, r.2.toList)
  | .reap at_ => let r := s.reclaimExpired o at_; (r.1.countTimeouts (timeouts r.2), r.2)
  | .forceLeaseExpiry id => ((s.forceLeaseExpiry id now).1, [])
  | .deleteQueue => ({}, [])

/-- The delivery a call makes: the entry leased and its token. -/
def delivery (o : Options) (now : Stamp) (s : Store) : Op → Option (String × String)
  | .take token => (s.take o token now).2.2.map fun e => (e.id, token)
  | _ => none

end Op

/-- A queue over time: its store, the clock, the events its listeners heard, and the
deliveries made so far, each an entry with the lease token it was handed out under. -/
structure World where
  store : Store
  clock : Stamp
  events : List Event
  leases : List (String × String)

namespace World

/-- An empty queue at instant `t`. -/
def empty (t : Stamp) : World := ⟨{}, t, [], []⟩

/-- Make a call at the clock's instant. -/
def call (o : Options) (w : World) (op : Op) : World :=
  let r := op.run o w.clock w.store
  { w with store := r.1, events := w.events ++ r.2,
           leases := w.leases ++ (op.delivery o w.clock w.store).toList }

/-- The lease tokens handed out so far. -/
def tokens (w : World) : List String := w.leases.map (·.2)

end World

/-- Whether a call may be made: new entries get ids no stored entry has, and every delivery
gets a token never handed out before. -/
def Op.Fresh (w : World) : Op → Prop
  | .enqueue id _ => id ∉ w.store.records.map (·.id)
  | .take token => token ∉ w.tokens
  | _ => True

/-- A step of a queue: the clock moves forward, or a call is made. -/
inductive Step (o : Options) : World → World → Prop where
  | tick {w : World} {t : Stamp} (h : w.clock ≤ t) : Step o w { w with clock := t }
  | call {w : World} (op : Op) (h : op.Fresh w) : Step o w (w.call o op)

/-- The worlds a queue reaches from an empty store. -/
def Reachable (o : Options) (w : World) : Prop :=
  ∃ t, Relation.ReflTransGen (Step o) (World.empty t) w

variable {o : Options} {w w' : World}

/-- A token once handed out stays handed out. -/
theorem Step.tokens_mono (hs : Step o w w') {t : String} (ht : t ∈ w.tokens) : t ∈ w'.tokens := by
  cases hs with
  | tick => exact ht
  | call op => simp only [World.tokens, World.call, List.map_append, List.mem_append]; exact .inl ht

end Backplane.Queue
