import Backplane.Fiber.Prog

/-!
# Cooperative tasks on a virtual clock: the scheduler

The scheduler runs in rounds. A round first runs the main task if it was woken, then up to
61 tasks from the front of the run queue, each until it waits again. When the queue runs dry
the scheduler *parks*: tasks that gave way are woken; when there were none and the main
task is not woken either, the clock moves to the earliest pending timer and the timers due
then fire, in the order they joined the wheel. After 61 tasks the scheduler parks without
moving the clock, so that the main task and tasks that gave way get their turn.

A task that arrives at a wait goes on at once when one of the things it waits for is over
already; otherwise it registers and stops. Running a task again tries its wait anew.
-/

namespace Backplane.Fiber

/-- The shared state and the programs of the tasks that have not finished. -/
structure Machine (σ : Type) : Type 1 where
  state : σ
  bodies : List (TaskId × Prog σ Json)

/-- How many tasks a round runs at most. -/
def roundLength : Nat := 61

/-- How many steps a task may take before it waits. -/
def sliceFuel : Nat := 1000000

variable {σ : Type} [HasKernel σ]

/-- Run task `t` until it waits or finishes: the state, the tasks it started, and what is
left of its program (`none` once finished). -/
def runSlice (t : TaskId) :
    Nat → Bool → Prog σ Json → σ → List (TaskId × Prog σ Json) →
      σ × List (TaskId × Prog σ Json) × Option (Prog σ Json)
  | 0, _, p, s, started => (s, started, some p)
  | fuel + 1, resumed, p, s, started =>
    match p with
    | .done r =>
      (HasKernel.withKernel s ((HasKernel.kernel s).finish t r), started, none)
    | .read k => runSlice t fuel false (k s) s started
    | .put s' k => runSlice t fuel false k s' started
    | .spawn b k =>
      let (kn, u) := (HasKernel.kernel s).spawn
      runSlice t fuel false (k u) (HasKernel.withKernel s kn) (started ++ [(u, b)])
    | .wait ws k =>
      let kn := HasKernel.kernel s
      match kn.firstReady t resumed ws with
      | some i =>
        let kn := ws.foldl (fun kn w => kn.unregister t w) kn
        runSlice t fuel false (k i) (HasKernel.withKernel s kn) started
      | none =>
        let kn := ws.foldl (fun kn w => kn.register t w) kn
        (HasKernel.withKernel s kn, started, some (.wait ws k))

namespace Machine

/-- The program of a task. -/
def body? (m : Machine σ) (t : TaskId) : Option (Prog σ Json) :=
  (m.bodies.find? (·.1 == t)).map (·.2)

def kernel (m : Machine σ) : Kernel := HasKernel.kernel m.state

/-- Change the kernel. -/
def onKernel (m : Machine σ) (f : Kernel → Kernel) : Machine σ :=
  { m with state := HasKernel.withKernel m.state (f m.kernel) }

/-- Run a task until it waits or finishes. -/
def poll (m : Machine σ) (t : TaskId) : Machine σ :=
  match m.body? t with
  | none => m
  | some p =>
    let m := m.onKernel fun k =>
      { k.modifyTask t ({ · with phase := .running }) with current := some t, rewake := false }
    let (s, started, rest) := runSlice t sliceFuel true p m.state []
    let others := m.bodies.filter (·.1 != t)
    let m : Machine σ := { state := s, bodies := others }
    match rest with
    | none =>
      let m := m.onKernel fun k => { k with current := none }
      { m with bodies := m.bodies ++ started }
    | some p' =>
      let m := m.onKernel fun k =>
        let k := { k with current := none }
        if t == 0 then
          (if k.rewake then { k with mainWoken := true } else k).modifyTask t ({ · with phase := .idle })
        else if k.rewake then
          { k.modifyTask t ({ · with phase := .queued }) with runQueue := k.runQueue ++ [t] }
        else k.modifyTask t ({ · with phase := .idle })
      { m with bodies := m.bodies ++ [(t, p')] ++ started }

/-- Wake the tasks that gave way. -/
def wakeDeferred (k : Kernel) : Kernel :=
  let ds := k.deferred
  { k with deferred := [] }.wakeAll ds

/-- Park when the run queue is empty: wake the tasks that gave way, or, when there are none
and the main task sleeps, move the clock to the earliest timer. `none` when nothing can ever
wake a task again. -/
def park (k : Kernel) : Option Kernel :=
  if !k.deferred.isEmpty || k.mainWoken then some (wakeDeferred k)
  else match k.nextDeadline? with
    | some d => some (wakeDeferred (k.advanceTo d))
    | none => none

/-- How a round ended. -/
inductive Round where
  /-- The main task finished with this result. -/
  | finished (r : Json)
  /-- More rounds are needed. -/
  | going
  /-- No task can ever be woken again. -/
  | stuck

/-- Run up to `n` tasks from the run queue, then park. -/
def runQueued (m : Machine σ) : Nat → Machine σ × Round
  | 0 => (m.onKernel wakeDeferred, .going)
  | n + 1 =>
    match m.kernel.runQueue with
    | [] =>
      match park m.kernel with
      | some k => (m.onKernel fun _ => k, .going)
      | none => (m, .stuck)
    | t :: rest =>
      let m := m.onKernel fun k => { k with runQueue := rest }
      runQueued (m.poll t) n

/-- One round: the main task when it was woken, then the run queue. -/
def round (m : Machine σ) : Machine σ × Round :=
  let m :=
    if m.kernel.mainWoken then (m.onKernel fun k => { k with mainWoken := false }).poll 0 else m
  match m.kernel.result? 0 with
  | some r => (m, .finished r)
  | none => runQueued m roundLength

/-- Run rounds until the main task finishes; `none` when it cannot, or when the rounds run
out. -/
def run (m : Machine σ) : Nat → Machine σ × Option Json
  | 0 => (m, none)
  | fuel + 1 =>
    match m.round with
    | (m, .finished r) => (m, some r)
    | (m, .going) => run m fuel
    | (m, .stuck) => (m, none)

/-- A machine whose main task runs `main` on the state `s`. -/
def boot (s : σ) (main : Prog σ Json) : Machine σ :=
  { state := HasKernel.withKernel s { (HasKernel.kernel s) with mainWoken := true },
    bodies := [(0, main)] }

end Machine

end Backplane.Fiber
