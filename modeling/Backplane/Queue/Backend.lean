import Backplane.Queue.Store
import Backplane.Hub

/-!
# Queue backends

An in-memory queue backend: its options, its store, the notification object that wakes
consumers waiting for work, and the listeners of its events.

The listeners of a backend are kept as data: one records every event, the other fails on
every event. Neither waits for anything, and that is the whole of what a listener may do here:
awaiting the calls of such listeners all together comes to calling them one after the other, in
the order they were registered, with no other task running in between.
-/

namespace Backplane.Queue

/-- What a listener of queue events does. -/
inductive Watcher where
  /-- Keep the event. -/
  | record
  /-- Fail. -/
  | fail
  deriving Repr, Inhabited, DecidableEq

/-- An in-memory queue backend. -/
structure Backend where
  options : Options := Options.default
  store : Store := {}
  available : Nat := 0
  hub : Hub Watcher := {}
  deriving Repr, Inhabited

end Backplane.Queue
