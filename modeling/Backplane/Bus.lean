/-!
# The in-memory message bus

Subscribers listen to a topic. Publishing a payload on a topic hands a copy to every open
subscriber of that topic, in the order they subscribed, and counts the publication whether
or not anyone listens. Each subscriber has an inbox that its delivery task drains in order;
a subscriber that unsubscribes receives nothing more, but the messages already in its inbox
are still handled before its delivery ends.

What a subscriber does with a message is data of type `η`. Each subscriber names a wake-up
signal of its delivery task, which publishing reports so that the caller can raise it.
-/

namespace Backplane

/-- A published message. -/
structure Message where
  topic : String
  payload : List UInt8
  deriving Repr, Inhabited, DecidableEq

/-- A subscriber: its topic, what it does with messages, its undelivered messages, whether
the bus still sends to it, and the signal that wakes its delivery. -/
structure Subscriber (η : Type) where
  id : Nat
  topic : String
  handler : η
  inbox : List Message := []
  isOpen : Bool := true
  signal : Nat
  deriving Repr, Inhabited

/-- What a delivery finds in a subscriber's inbox. -/
inductive Delivery (η : Type) where
  /-- The next message, with the subscriber's handler. -/
  | message (m : Message) (handler : η)
  /-- Nothing yet. -/
  | idle
  /-- Nothing, and nothing more will come: the delivery ends. -/
  | closed
  deriving Repr, Inhabited

/-- A bus: its subscribers in subscription order, and the number of publications. -/
structure Bus (η : Type) where
  subscribers : List (Subscriber η) := []
  nextId : Nat := 0
  published : Nat := 0
  deriving Repr, Inhabited

namespace Bus

variable {η : Type}

/-- Add a subscriber to a topic; its id. -/
def subscribe (b : Bus η) (topic : String) (handler : η) (signal : Nat) : Bus η × Nat :=
  ({ b with subscribers := b.subscribers ++ [{ id := b.nextId, topic, handler, signal }],
            nextId := b.nextId + 1 }, b.nextId)

/-- Publish a payload; the signals of the subscribers that received it, in order. -/
def publish (b : Bus η) (topic : String) (payload : List UInt8) : Bus η × List Nat :=
  let m : Message := ⟨topic, payload⟩
  let hit (s : Subscriber η) : Bool := s.isOpen && s.topic == topic
  ({ b with published := b.published + 1,
            subscribers := b.subscribers.map fun s =>
              if hit s then { s with inbox := s.inbox ++ [m] } else s },
   (b.subscribers.filter hit).map (·.signal))

/-- Stop sending to a subscriber; the signal of its delivery, which must learn that it ends. -/
def unsubscribe (b : Bus η) (id : Nat) : Bus η × Option Nat :=
  match b.subscribers.find? fun s => s.id == id && s.isOpen with
  | some s =>
    ({ b with subscribers := b.subscribers.map fun t =>
        if t.id == id then { t with isOpen := false } else t }, some s.signal)
  | none => (b, none)

/-- Take the next message of a subscriber's inbox; a closed, empty inbox is removed. -/
def take (b : Bus η) (id : Nat) : Bus η × Delivery η :=
  match b.subscribers.find? (·.id == id) with
  | some s =>
    match s.inbox with
    | m :: rest =>
      ({ b with subscribers := b.subscribers.map fun t =>
          if t.id == id then { t with inbox := rest } else t }, .message m s.handler)
    | [] =>
      if s.isOpen then (b, .idle)
      else ({ b with subscribers := b.subscribers.filter (·.id != id) }, .closed)
  | none => (b, .closed)

/-- The number of open subscribers of a topic. -/
def subscriberCount (b : Bus η) (topic : String) : Nat :=
  (b.subscribers.filter fun s => s.isOpen && s.topic == topic).length

end Bus

end Backplane
