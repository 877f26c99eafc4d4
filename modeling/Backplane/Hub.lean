/-!
# Event hubs

A hub keeps listeners in the order they were registered; a listener is either permanent or
fires once. Emitting an event takes a snapshot of the listeners, unregisters the one-shot
listeners of the snapshot, and calls every listener of the snapshot in order. The emitter
learns how many of them failed.

What a listener does is data of type `β`; the caller runs the snapshot. The listeners that
callers keep record the event or fail at once, never waiting, so the snapshot's calls are made
one after the other in registration order, which is what awaiting them all together gives for
listeners that never wait.
-/

namespace Backplane

/-- A registered listener. -/
structure Listener (β : Type) where
  id : Nat
  once : Bool
  behaviour : β
  deriving Repr, Inhabited

/-- Listeners in registration order. -/
structure Hub (β : Type) where
  listeners : List (Listener β) := []
  deriving Repr, Inhabited

namespace Hub

variable {β : Type}

/-- Register a listener under a fresh id. -/
def add (h : Hub β) (id : Nat) (once : Bool) (b : β) : Hub β :=
  { listeners := h.listeners ++ [⟨id, once, b⟩] }

/-- Unregister a listener; false when it was not registered. -/
def off (h : Hub β) (id : Nat) : Hub β × Bool :=
  let kept := h.listeners.filter (·.id != id)
  ({ listeners := kept }, kept.length != h.listeners.length)

/-- Unregister every listener; their count. -/
def clear (h : Hub β) : Hub β × Nat := ({ listeners := [] }, h.listeners.length)

def size (h : Hub β) : Nat := h.listeners.length

/-- The listeners to call for an event, and the hub without the one-shot ones. -/
def snapshot (h : Hub β) : Hub β × List (Listener β) :=
  ({ listeners := h.listeners.filter (!·.once) }, h.listeners)

end Hub

end Backplane
