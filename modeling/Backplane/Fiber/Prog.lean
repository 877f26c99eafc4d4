import Backplane.Fiber.Kernel

/-!
# Cooperative tasks on a virtual clock: programs

A program of a task reads and replaces the shared state, starts other tasks, and waits. The
shared state `σ` holds the kernel of `Backplane.Fiber.Kernel`, so waking and timing are part
of it. A program is a tree: after each wait it goes on with the branch of the first wait that
is over.

The combinators below are the usual ones of asynchronous code: sleeping, giving way,
waiting on notifications, joining a task, and running a program under a time limit. A
program that runs out of time is abandoned where it waits: its timers and waiters are
dropped, and the tasks it started run on.
-/

namespace Backplane.Fiber

/-- A state that holds a kernel. -/
class HasKernel (σ : Type) where
  kernel : σ → Kernel
  withKernel : σ → Kernel → σ

/-- A program of a task over the shared state `σ`, with a result of type `α`; tasks it
starts give a JSON result. -/
inductive Prog (σ : Type) : Type → Type 1 where
  /-- Finished with a result. -/
  | done {α : Type} (a : α) : Prog σ α
  /-- Look at the state. -/
  | read {α : Type} (k : σ → Prog σ α) : Prog σ α
  /-- Replace the state. -/
  | put {α : Type} (s : σ) (k : Prog σ α) : Prog σ α
  /-- Wait until one of several things is over; go on with the first by its position. -/
  | wait {α : Type} (ws : List Wait) (k : Nat → Prog σ α) : Prog σ α
  /-- Start a task; go on with its id. -/
  | spawn {α : Type} (body : Prog σ Json) (k : TaskId → Prog σ α) : Prog σ α

namespace Prog

variable {σ : Type}

/-- Run one program, then another on its result. -/
def bind {α β : Type} : Prog σ α → (α → Prog σ β) → Prog σ β
  | .done a, g => g a
  | .read k, g => .read fun s => bind (k s) g
  | .put s k, g => .put s (bind k g)
  | .wait ws k, g => .wait ws fun i => bind (k i) g
  | .spawn b k, g => .spawn b fun t => bind (k t) g

instance : Monad (Prog σ) where
  pure := .done
  bind := bind

def get : Prog σ σ := .read .done

def set (s : σ) : Prog σ Unit := .put s (.done ())

def modify (f : σ → σ) : Prog σ Unit := .read fun s => .put (f s) (.done ())

/-- Change the state and compute a value in one step. -/
def modifyGet {α : Type} (f : σ → α × σ) : Prog σ α :=
  .read fun s => let r := f s; .put r.2 (.done r.1)

/-- Wait for the first of several things; its position. -/
def waitAny (ws : List Wait) : Prog σ Nat := .wait ws .done

/-- Wait for nothing: the task is never run again. A loop that would go on for ever ends
here once its turns run out. -/
def stall {α : Type} [Inhabited α] : Prog σ α := .wait [] fun _ => .done default

def start (body : Prog σ Json) : Prog σ TaskId := .spawn body .done

variable [HasKernel σ]

def kernel : Prog σ Kernel := .read fun s => .done (HasKernel.kernel s)

/-- Change the kernel and compute a value in one step. -/
def onKernel {α : Type} (f : Kernel → Kernel × α) : Prog σ α :=
  .read fun s =>
    let r := f (HasKernel.kernel s)
    .put (HasKernel.withKernel s r.1) (.done r.2)

def updateKernel (f : Kernel → Kernel) : Prog σ Unit := onKernel fun k => (f k, ())

def self : Prog σ TaskId := do return (← kernel).current.getD 0

/-- Milliseconds since the start. -/
def clock : Prog σ Nat := do return (← kernel).clock

/-- A timer `ms` milliseconds from now. -/
def timer (ms : Nat) : Prog σ Nat := do
  let me ← self
  onKernel (·.newTimer me ms)

def dropTimer (id : Nat) : Prog σ Unit := updateKernel (·.dropTimer id)

/-- Wait `ms` milliseconds. -/
def sleep (ms : Nat) : Prog σ Unit := do
  let tm ← timer ms
  let _ ← waitAny [.timer tm]
  dropTimer tm

/-- Wait for the first of several things as a `select` of the runtime does: it tries the
branches in turn from the one the runtime picks, and goes on with the first over; the position
in `ws`. -/
def select (ws : List Wait) : Prog σ Nat := do
  let c ← onKernel (·.takeCoin)
  let r := c % ws.length
  let i ← waitAny (ws.drop r ++ ws.take r)
  return (i + r) % ws.length

/-- Give way to every other runnable task. -/
def yieldNow : Prog σ Unit := do
  let _ ← waitAny [.yield]
  pure ()

def newNotify : Prog σ Nat := onKernel (·.fresh)

/-- Start waiting for a notification: notifications from now on reach the waiter. -/
def enable (notify : Nat) : Prog σ Nat := do
  let me ← self
  onKernel (·.newWaiter me notify)

def dropWaiter (id : Nat) : Prog σ Unit := updateKernel (·.dropWaiter id)

/-- Notify the waiters present. -/
def notifyWaiters (notify : Nat) : Prog σ Unit := updateKernel (·.notifyWaiters notify)

/-- A new cancellation token, a child of `parent` when given. -/
def newToken (parent : Option Nat) : Prog σ Nat := onKernel (·.newToken parent)

/-- Cancel a token and its descendants. -/
def cancel (token : Nat) : Prog σ Unit :=
  updateKernel fun k => k.cancel token (k.tokens.length + 1)

def isCancelled (token : Nat) : Prog σ Bool := do return (← kernel).isCancelled token

def newSignal : Prog σ Nat := onKernel (·.fresh)

def raise (id : Nat) : Prog σ Unit := updateKernel (·.raise id)

/-- Wait for a task to finish; its result. -/
def join (t : TaskId) : Prog σ Json := do
  let _ ← waitAny [.finished t]
  return ((← kernel).result? t).getD .null

/-- Drop the timers and waiters of the running task made after `mark`. -/
def dropSince (mark : Nat) : Prog σ Unit := do
  let me ← self
  updateKernel fun k =>
    { k with timers := k.timers.filter fun tm => !(tm.owner == me && mark < tm.id),
             waiters := k.waiters.filter fun w => !(w.owner == me && mark < w.id) }

/-- Run a program until it finishes or the timer `tm` falls due; the program is asked
first each time. -/
def race {α : Type} (tm : Nat) : Prog σ α → Prog σ (Option α)
  | .done a => .done (some a)
  | .read k => .read fun s => race tm (k s)
  | .put s k => .put s (race tm k)
  | .spawn b k => .spawn b fun t => race tm (k t)
  | .wait ws k => .wait (ws ++ [.timer tm]) fun i =>
      if i < ws.length then race tm (k i) else dropSince tm *> .done none

/-- Run a program for at most `ms` milliseconds; `none` when it ran out of time. -/
def withTimeout {α : Type} (ms : Nat) (p : Prog σ α) : Prog σ (Option α) := do
  let tm ← timer ms
  let r ← race tm p
  dropTimer tm
  return r

end Prog

end Backplane.Fiber
