import Backplane.Json.Value

/-!
# Cooperative tasks on a virtual clock: the bookkeeping

Tasks run one at a time and give way only where they wait. Time is virtual: the clock counts
whole milliseconds since the start and moves only when every task waits, straight to the
earliest pending timer.

The kernel keeps everything a waiting task can be woken by:

* *timers*, each with a deadline; a timer joins the wheel the first time a task waits on it
  while it is pending, and timers that fall due together fire in the order they joined;
* *waiters* on a notification object; notifying wakes the waiters present, oldest first,
  and marks them notified, also those whose task has not started waiting yet;
* *cancellation tokens*, arranged in a tree: cancelling one cancels its descendants first,
  the youngest child first, then itself;
* *signals*, which wake a task that waits on them (a delivery that waits for mail);
* the end of a task, which wakes the one task that last waited to join it;
* giving way (`yield`): the task runs again once the run queue is empty.

Which of several things over at once a `select` takes is the runtime's choice. The kernel
holds the choices still to come (`coins`): the branch each `select` tries first. With none
left it tries them in order, as every run of the model does; a statement about every kernel
holds whatever the choices.

Task `0` is the *main task*. It is not kept in the run queue: waking it raises a flag, and it
runs first whenever the flag is up at the top of a round of the scheduler. Waking another
task puts it at the end of the run queue, unless it is queued already; waking the running
task puts it back once it waits again.
-/

namespace Backplane.Fiber

/-- A task; task `0` is the main task. -/
abbrev TaskId := Nat

/-- What a task can wait for. -/
inductive Wait where
  /-- A timer reaches its deadline. -/
  | timer (id : Nat)
  /-- A waiter is notified. -/
  | notified (id : Nat)
  /-- A cancellation token is cancelled. -/
  | cancelled (token : Nat)
  /-- A task finishes. -/
  | finished (task : TaskId)
  /-- A signal is raised while the task waits on it. -/
  | signal (id : Nat)
  /-- The task has been run again after giving way. -/
  | yield
  deriving Repr, Inhabited, DecidableEq

/-- A timer and, once it joined the wheel, its place in the order of joining. -/
structure Timer where
  id : Nat
  deadline : Nat
  owner : TaskId
  seq : Option Nat := none
  deriving Repr, Inhabited

/-- A waiter on a notification object; `armed` once its task waits on it. -/
structure Waiter where
  id : Nat
  notify : Nat
  owner : TaskId
  notified : Bool := false
  armed : Bool := false
  deriving Repr, Inhabited

/-- A cancellation token, with its parent and children. -/
structure Token where
  id : Nat
  parent : Option Nat
  children : List Nat := []
  cancelled : Bool := false
  deriving Repr, Inhabited

/-- Where a task is in its life. -/
inductive Phase where
  | queued
  | running
  | idle
  | done (result : Json)
  deriving Repr, Inhabited

/-- A task's phase and the task that last waited to join it. -/
structure Task where
  id : TaskId
  phase : Phase
  joiner : Option TaskId := none
  deriving Repr, Inhabited

/-- The bookkeeping of the tasks of one run. -/
structure Kernel where
  clock : Nat := 0
  nextId : Nat := 1
  nextSeq : Nat := 0
  tasks : List Task := [⟨0, .running, none⟩]
  runQueue : List TaskId := []
  deferred : List TaskId := []
  mainWoken : Bool := false
  current : Option TaskId := none
  rewake : Bool := false
  timers : List Timer := []
  waiters : List Waiter := []
  tokens : List Token := []
  tokenWaits : List (Nat × TaskId) := []
  signalWaits : List (Nat × TaskId × Bool) := []
  coins : List Nat := []
  deriving Repr, Inhabited

/-- The longest a timer can be set for, in milliseconds from the start. -/
def timerCap : Nat := Nat.pow 2 36 - 2

namespace Kernel

def fresh (k : Kernel) : Kernel × Nat := ({ k with nextId := k.nextId + 1 }, k.nextId)

/-- The branch the next `select` tries first: the next of the runtime's choices, or the
first branch when none is left. -/
def takeCoin (k : Kernel) : Kernel × Nat :=
  match k.coins with
  | [] => (k, 0)
  | c :: cs => ({ k with coins := cs }, c)

def task? (k : Kernel) (t : TaskId) : Option Task := k.tasks.find? (·.id == t)

/-- Change a task's record. -/
def modifyTask (k : Kernel) (t : TaskId) (f : Task → Task) : Kernel :=
  { k with tasks := k.tasks.map fun r => if r.id == t then f r else r }

/-- Whether a task has finished. -/
def isDone (k : Kernel) (t : TaskId) : Bool :=
  match k.task? t with
  | some ⟨_, .done _, _⟩ => true
  | _ => false

/-- The result of a finished task. -/
def result? (k : Kernel) (t : TaskId) : Option Json :=
  match k.task? t with
  | some ⟨_, .done r, _⟩ => some r
  | _ => none

/-- Wake a task: the main task raises its flag; the running task is put back once it waits;
an idle task goes to the end of the run queue. -/
def wake (k : Kernel) (t : TaskId) : Kernel :=
  if t == 0 then { k with mainWoken := true }
  else if k.current == some t then { k with rewake := true }
  else match k.task? t with
    | some ⟨_, .idle, _⟩ =>
      { k.modifyTask t ({ · with phase := .queued }) with runQueue := k.runQueue ++ [t] }
    | _ => k

/-- Wake tasks in order. -/
def wakeAll (k : Kernel) (ts : List TaskId) : Kernel := ts.foldl wake k

/-- A new task, at the end of the run queue. -/
def spawn (k : Kernel) : Kernel × TaskId :=
  let (k, t) := k.fresh
  ({ k with tasks := k.tasks ++ [⟨t, .queued, none⟩], runQueue := k.runQueue ++ [t] }, t)

/-- A task ends with a result and wakes the task that waits to join it. -/
def finish (k : Kernel) (t : TaskId) (r : Json) : Kernel :=
  let joiner := (k.task? t).bind (·.joiner)
  let k := k.modifyTask t ({ · with phase := .done r })
  let k := { k with timers := k.timers.filter (·.owner != t),
                    waiters := k.waiters.filter (·.owner != t),
                    tokenWaits := k.tokenWaits.filter (·.2 != t),
                    signalWaits := k.signalWaits.filter (·.2.1 != t) }
  match joiner with
  | some j => k.wake j
  | none => k

/-! ## Timers -/

/-- A timer `ms` milliseconds from now, owned by a task. -/
def newTimer (k : Kernel) (owner : TaskId) (ms : Nat) : Kernel × Nat :=
  let (k, id) := k.fresh
  ({ k with timers := k.timers ++ [{ id, deadline := Nat.min (k.clock + ms) timerCap, owner }] },
   id)

/-- Forget a timer. -/
def dropTimer (k : Kernel) (id : Nat) : Kernel :=
  { k with timers := k.timers.filter (·.id != id) }

/-- Whether a timer has fallen due. -/
def timerDue (k : Kernel) (id : Nat) : Bool :=
  match k.timers.find? (·.id == id) with
  | some tm => decide (tm.deadline ≤ k.clock)
  | none => false

/-- The earliest deadline of the timers in the wheel that have not fired. -/
def nextDeadline? (k : Kernel) : Option Nat :=
  k.timers.foldl (fun acc tm =>
    if tm.seq.isSome && k.clock < tm.deadline then
      match acc with
      | some d => some (Nat.min d tm.deadline)
      | none => some tm.deadline
    else acc) none

/-- Insert a timer into a list ordered by place in the wheel. -/
def insertBySeq (tm : Timer) : List Timer → List Timer
  | [] => [tm]
  | t :: ts => if tm.seq.getD 0 < t.seq.getD 0 then tm :: t :: ts else t :: insertBySeq tm ts

/-- Move the clock to `target` and fire the timers of the wheel that fall due on the way, in
the order they joined it. -/
def advanceTo (k : Kernel) (target : Nat) : Kernel :=
  let due := k.timers.filter fun tm =>
    tm.seq.isSome && k.clock < tm.deadline && tm.deadline ≤ target
  let ordered := due.foldl (fun acc tm => insertBySeq tm acc) []
  let k := { k with clock := target }
  ordered.foldl (fun k tm => k.wake tm.owner) k

/-! ## Notifications -/

/-- A waiter of a task on a notification object. -/
def newWaiter (k : Kernel) (owner : TaskId) (notify : Nat) : Kernel × Nat :=
  let (k, id) := k.fresh
  ({ k with waiters := k.waiters ++ [{ id := id, notify := notify, owner := owner }] }, id)

/-- Forget a waiter. -/
def dropWaiter (k : Kernel) (id : Nat) : Kernel :=
  { k with waiters := k.waiters.filter (·.id != id) }

/-- Notify every waiter present on an object, oldest first. -/
def notifyWaiters (k : Kernel) (notify : Nat) : Kernel :=
  let hit (w : Waiter) : Bool := w.notify == notify && !w.notified
  let woken := (k.waiters.filter fun w => hit w && w.armed).map (·.owner)
  let k := { k with waiters := k.waiters.map fun w => if hit w then { w with notified := true } else w }
  k.wakeAll woken

/-- Whether a waiter has been notified. -/
def isNotified (k : Kernel) (id : Nat) : Bool :=
  (k.waiters.find? (·.id == id)).any (·.notified)

/-! ## Cancellation -/

/-- A token, a child of `parent` when given; the child of a cancelled token starts
cancelled. -/
def newToken (k : Kernel) (parent : Option Nat) : Kernel × Nat :=
  let (k, id) := k.fresh
  let cancelled := parent.any fun p => (k.tokens.find? (·.id == p)).any (·.cancelled)
  let k := { k with tokens := k.tokens.map fun (tk : Token) =>
    if parent == some tk.id then { tk with children := tk.children ++ [id] } else tk }
  ({ k with tokens := k.tokens ++ [{ id := id, parent := parent, cancelled := cancelled }] }, id)

/-- Whether a token is cancelled. -/
def isCancelled (k : Kernel) (id : Nat) : Bool :=
  (k.tokens.find? (·.id == id)).any (·.cancelled)

/-- Cancel a token and its descendants: the children first, youngest first, then the token
itself; each wakes the tasks waiting on it, oldest first. -/
def cancel (k : Kernel) (id : Nat) : Nat → Kernel
  | 0 => k
  | fuel + 1 =>
    match k.tokens.find? (·.id == id) with
    | some tk =>
      if tk.cancelled then k
      else
        let k := tk.children.reverse.foldl (fun k c => cancel k c fuel) k
        let waiting := (k.tokenWaits.filter (·.1 == id)).map (·.2)
        let k := { k with tokens := k.tokens.map fun (t : Token) =>
                            if t.id == id then { t with cancelled := true } else t,
                          tokenWaits := k.tokenWaits.filter (·.1 != id) }
        k.wakeAll waiting
    | none => k

/-! ## Signals -/

/-- Raise a signal: wake the tasks that wait on it. -/
def raise (k : Kernel) (id : Nat) : Kernel :=
  let woken := (k.signalWaits.filter fun e => e.1 == id && !e.2.2).map (·.2.1)
  let k := { k with signalWaits := k.signalWaits.map fun (e : Nat × TaskId × Bool) =>
    if e.1 == id then (e.1, e.2.1, true) else e }
  k.wakeAll woken

/-! ## Waiting -/

/-- Whether a wait of task `t` is over; `resumed` tells whether the task is being run again
after waiting, rather than arriving at the wait. -/
def ready (k : Kernel) (t : TaskId) (resumed : Bool) : Wait → Bool
  | .timer id => k.timerDue id
  | .notified id => k.isNotified id
  | .cancelled tk => k.isCancelled tk
  | .finished u => k.isDone u
  | .signal s => k.signalWaits.any fun e => e.1 == s && e.2.1 == t && e.2.2
  | .yield => resumed

/-- The first wait that is over, by its position. A `select` hands its branches over rotated to
the one the runtime picked (`takeCoin`), so which of them comes first is that choice. -/
def firstReady (k : Kernel) (t : TaskId) (resumed : Bool) (ws : List Wait) : Option Nat :=
  ws.findIdx? (k.ready t resumed)

/-- Record that task `t` waits: timers join the wheel, waiters get armed, and the task is
registered with tokens, tasks and signals; a task that gives way is deferred. -/
def register (k : Kernel) (t : TaskId) : Wait → Kernel
  | .timer id =>
    if (k.timers.find? (·.id == id)).any (·.seq.isNone) then
      { k with timers := k.timers.map (fun tm => if tm.id == id then { tm with seq := some k.nextSeq } else tm),
               nextSeq := k.nextSeq + 1 }
    else k
  | .notified id =>
    { k with waiters := k.waiters.map fun w => if w.id == id then { w with armed := true } else w }
  | .cancelled tk =>
    if k.tokenWaits.any (· == (tk, t)) then k else { k with tokenWaits := k.tokenWaits ++ [(tk, t)] }
  | .finished u => k.modifyTask u ({ · with joiner := some t })
  | .signal s =>
    if k.signalWaits.any fun e => e.1 == s && e.2.1 == t then k
    else { k with signalWaits := k.signalWaits ++ [(s, t, false)] }
  | .yield =>
    if k.deferred.getLast? == some t then k else { k with deferred := k.deferred ++ [t] }

/-- Forget what task `t` registered for a wait that is over, apart from timers and waiters,
which their owner drops. -/
def unregister (k : Kernel) (t : TaskId) : Wait → Kernel
  | .cancelled tk => { k with tokenWaits := k.tokenWaits.filter (· != (tk, t)) }
  | .signal s => { k with signalWaits := k.signalWaits.filter fun e => !(e.1 == s && e.2.1 == t) }
  | _ => k

end Kernel

end Backplane.Fiber
