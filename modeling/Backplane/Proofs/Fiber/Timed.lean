import Mathlib.Data.List.Rotate
import Backplane.Proofs.Fiber.Run

/-!
# Runs on the clock

A run of `Prog.Run` goes on after a wait in whatever state the other tasks leave, and so says
nothing about when a wait ends. The runtime promises more (`Kernel.Resumes`): a task goes on
with one of the things it waited for; the clock has not gone back; it has not passed the
deadline of a timer the task waits on, since the paused clock moves straight to the earliest
pending timer and runs the tasks that timer wakes before it moves again; a timer that ends the
wait has fallen due; and a join ends only once its task has finished. So a wait on nothing
never ends.

Nothing else is promised: the other tasks still leave any state they like, and a notification
may end a wait at any instant before its timer.

`Prog.Timed` relates a program to its whole runs that keep the promise at every wait, and
`Prog.Wakes` gives the states in which a task is run again after a wait, in such a run that
need not be over. A program that never waits (`Prog.Atomic`) has the same timed runs as runs,
and is never woken.
-/

namespace Backplane.Fiber

/-- How the runtime runs a task again after it waited on `ws` with the kernel `k`: it goes on
with the wait at position `i`, in the kernel `k'`. -/
structure Kernel.Resumes (ws : List Wait) (k k' : Kernel) (i : Nat) : Prop where
  /-- The wait that ended is one of those waited on. -/
  pos : i < ws.length
  /-- The clock does not go back. -/
  clock_le : k.clock ≤ k'.clock
  /-- The clock does not pass a timer the task waits on. -/
  le_deadline : ∀ tm ∈ k.timers, Wait.timer tm.id ∈ ws → k'.clock ≤ Nat.max k.clock tm.deadline
  /-- A timer that ends the wait has fallen due. -/
  due : ∀ tm ∈ k.timers, ws[i]? = some (Wait.timer tm.id) → tm.deadline ≤ k'.clock
  /-- A join that ends the wait found its task finished. -/
  joined : ∀ u, ws[i]? = some (Wait.finished u) → k'.isDone u = true

namespace Kernel

variable {k : Kernel}

@[simp] theorem newTimer_clock (owner ms : Nat) : (k.newTimer owner ms).1.clock = k.clock := rfl

@[simp] theorem newWaiter_clock (owner n : Nat) : (k.newWaiter owner n).1.clock = k.clock := rfl

@[simp] theorem dropTimer_clock (id : Nat) : (k.dropTimer id).clock = k.clock := rfl

@[simp] theorem dropWaiter_clock (id : Nat) : (k.dropWaiter id).clock = k.clock := rfl

theorem newTimer_id (owner ms : Nat) : (k.newTimer owner ms).2 = k.nextId := rfl

/-- A new timer is due `ms` from now, or at the end of the timer range. -/
theorem mem_newTimer (owner ms : Nat) :
    { id := k.nextId, deadline := Nat.min (k.clock + ms) timerCap, owner := owner } ∈
      (k.newTimer owner ms).1.timers :=
  List.mem_append_right _ (List.mem_singleton_self _)

/-- A task that waits on a timer set `ms` from the clock's reading is run again no later. -/
theorem Resumes.le_of_newTimer {ws : List Wait} {k' : Kernel} {owner ms i : Nat}
    (hr : (k.newTimer owner ms).1.Resumes ws k' i) (hw : Wait.timer k.nextId ∈ ws) :
    k'.clock ≤ k.clock + ms := by
  calc k'.clock ≤ Nat.max k.clock (Nat.min (k.clock + ms) timerCap) :=
        hr.le_deadline _ (mem_newTimer owner ms) hw
    _ ≤ k.clock + ms := Nat.max_le.2 ⟨Nat.le_add_right _ _, Nat.min_le_left _ _⟩

/-- A task that waits only on a fresh timer set `ms` from the clock's reading is run again
exactly when it falls due: `ms` later, or at the end of the timer range if that comes first,
and never before the reading itself. -/
theorem Resumes.clock_of_sleep {k' : Kernel} {owner ms i : Nat}
    (hr : (k.newTimer owner ms).1.Resumes [.timer k.nextId] k' i) :
    k'.clock = max k.clock (min (k.clock + ms) timerCap) := by
  have hle : k'.clock ≤ max k.clock (min (k.clock + ms) timerCap) :=
    hr.le_deadline _ (mem_newTimer owner ms) (List.mem_singleton_self _)
  have hi : i = 0 := by
    have hpos := hr.pos
    simp only [List.length_singleton] at hpos
    omega
  subst hi
  have hdue : min (k.clock + ms) timerCap ≤ k'.clock := hr.due _ (mem_newTimer owner ms) rfl
  have hge : k.clock ≤ k'.clock := hr.clock_le
  omega

/-- Nor is it run again past the end of the timer range, unless the clock already was. -/
theorem Resumes.le_cap_of_newTimer {ws : List Wait} {k' : Kernel} {owner ms i : Nat}
    (hr : (k.newTimer owner ms).1.Resumes ws k' i) (hw : Wait.timer k.nextId ∈ ws) :
    k'.clock ≤ max k.clock timerCap := by
  calc k'.clock ≤ Nat.max k.clock (Nat.min (k.clock + ms) timerCap) :=
        hr.le_deadline _ (mem_newTimer owner ms) hw
    _ ≤ max k.clock timerCap :=
        Nat.max_le.2 ⟨Nat.le_max_left _ _, Nat.le_trans (Nat.min_le_right _ _) (Nat.le_max_right _ _)⟩

@[simp] theorem takeCoin_clock : k.takeCoin.1.clock = k.clock := by
  unfold takeCoin
  split <;> rfl

@[simp] theorem takeCoin_timers : k.takeCoin.1.timers = k.timers := by
  unfold takeCoin
  split <;> rfl

/-- The promise reads only the clock and the timers of the kernel the wait began in. -/
theorem Resumes.of_eq {ws : List Wait} {k₁ k' : Kernel} {i : Nat} (hc : k₁.clock = k.clock)
    (ht : k₁.timers = k.timers) (h : k₁.Resumes ws k' i) : k.Resumes ws k' i where
  pos := h.pos
  clock_le := hc ▸ h.clock_le
  le_deadline := hc ▸ ht ▸ h.le_deadline
  due := ht ▸ h.due
  joined := h.joined

/-- A wait may end at once, the clock where it stands, on a thing it waits for that is over
already: a timer that has fallen due, not a join. -/
theorem Resumes.at_once {ws : List Wait} {i : Nat} (hi : i < ws.length)
    (hdue : ∀ tm ∈ k.timers, ws[i]? = some (.timer tm.id) → tm.deadline ≤ k.clock)
    (hjoin : ∀ t, ws[i]? ≠ some (.finished t)) : k.Resumes ws k i where
  pos := hi
  clock_le := Nat.le_refl _
  le_deadline _ _ _ := Nat.le_max_left _ _
  due := hdue
  joined t ht := absurd ht (hjoin t)

/-- Trying the branches from another place changes the position of the one taken, not what
the runtime promises of it. -/
theorem Resumes.of_rotate {ws : List Wait} {k' : Kernel} {i c : Nat}
    (h : k.Resumes (ws.rotate c) k' i) : k.Resumes ws k' ((i + c) % ws.length) := by
  have hi : i < ws.length := List.length_rotate ws c ▸ h.pos
  have hget : ws[(i + c) % ws.length]? = (ws.rotate c)[i]? := (List.getElem?_rotate hi).symm
  exact {
    pos := Nat.mod_lt _ (Nat.zero_lt_of_lt hi)
    clock_le := h.clock_le
    le_deadline := fun tm htm hw => h.le_deadline tm htm (List.mem_rotate.2 hw)
    due := fun tm htm he => h.due tm htm (hget ▸ he)
    joined := fun u he => h.joined u (hget ▸ he) }

theorem Resumes.rotate {ws : List Wait} {k' : Kernel} {j : Nat} (c : Nat)
    (h : k.Resumes ws k' j) : ∃ i, k.Resumes (ws.rotate c) k' i ∧ (i + c) % ws.length = j := by
  have hj : j < ws.length := h.pos
  set n := ws.length
  have hc : c % n + n * (c / n) = c := Nat.mod_add_div c n
  have hle : c % n ≤ n := (Nat.mod_lt _ (Nat.zero_lt_of_lt hj)).le
  -- rotating on by the rest of a turn gives the list back
  have hback : (ws.rotate c).rotate (n - c % n) = ws := by
    rw [List.rotate_rotate, show c + (n - c % n) = n * (c / n + 1) by rw [Nat.mul_add]; omega,
      List.rotate_length_mul]
  have hi : k.Resumes ((ws.rotate c).rotate (n - c % n)) k' j := by rw [hback]; exact h
  replace hi := hi.of_rotate
  rw [List.length_rotate] at hi
  refine ⟨_, hi, ?_⟩
  calc ((j + (n - c % n)) % n + c) % n
      = (j + (n - c % n) + (c % n + n * (c / n))) % n := by rw [Nat.mod_add_mod, Nat.mod_add_div]
    _ = (j + n * (1 + c / n)) % n := by congr 1; rw [Nat.mul_add]; omega
    _ = j := by rw [Nat.add_mul_mod_self_left, Nat.mod_eq_of_lt hj]

end Kernel

namespace Prog

/-! ## Programs that never wait -/

section Atomic

variable {σ : Type} {α β : Type} {a : α}

/-- A program that never waits: it runs from start to end with no other task in between. -/
inductive Atomic : {α : Type} → Prog σ α → Prop
  | done {α : Type} {a : α} : Atomic (.done a)
  | read {α : Type} {k : σ → Prog σ α} : (∀ s, Atomic (k s)) → Atomic (.read k)
  | put {α : Type} {k : Prog σ α} {t : σ} : Atomic k → Atomic (.put t k)
  | spawn {α : Type} {b : Prog σ Json} {k : TaskId → Prog σ α} :
      (∀ t, Atomic (k t)) → Atomic (.spawn b k)

theorem Atomic.bind {x : Prog σ α} {f : α → Prog σ β} (hx : Atomic x) (hf : ∀ a, Atomic (f a)) :
    Atomic (x >>= f) := by
  change Atomic (Prog.bind x f)
  induction hx with
  | done => exact hf _
  | read _ ih => exact .read ih
  | put _ ih => exact .put ih
  | spawn _ ih => exact .spawn ih

theorem atomic_pure : Atomic (pure a : Prog σ α) := .done

theorem atomic_get : Atomic (get : Prog σ σ) := .read fun _ => .done

theorem atomic_modifyGet {f : σ → α × σ} : Atomic (modifyGet f) := .read fun _ => .put .done

theorem atomic_modify {f : σ → σ} : Atomic (modify f) := .read fun _ => .put .done

theorem atomic_map {x : Prog σ α} {f : α → β} (hx : Atomic x) : Atomic (f <$> x) :=
  hx.bind fun _ => .done

end Atomic

variable {σ : Type} [HasKernel σ]

/-- The timed runs of a task's program: started in state `s`, it may finish with `a` in state
`s'`, each of its waits ending as the runtime promises. -/
inductive Timed : {α : Type} → Prog σ α → σ → α → σ → Prop
  | done {α : Type} {a : α} {s : σ} : Timed (.done a) s a s
  | read {α : Type} {k : σ → Prog σ α} {s s' : σ} {a : α} :
      Timed (k s) s a s' → Timed (.read k) s a s'
  | put {α : Type} {k : Prog σ α} {s t s' : σ} {a : α} :
      Timed k t a s' → Timed (.put t k) s a s'
  | wait {α : Type} {ws : List Wait} {k : Nat → Prog σ α} {s s' : σ} {a : α} (i : Nat) (u : σ)
      (hr : (HasKernel.kernel s).Resumes ws (HasKernel.kernel u) i) :
      Timed (k i) u a s' → Timed (.wait ws k) s a s'
  | spawn {α : Type} {b : Prog σ Json} {k : TaskId → Prog σ α} {s s' : σ} {a : α} :
      Timed (k (HasKernel.kernel s).spawn.2)
        (HasKernel.withKernel s (HasKernel.kernel s).spawn.1) a s' →
      Timed (.spawn b k) s a s'

/-- The states in which a task is run again after one of its waits, in a timed run of its
program from `s` that need not be over. -/
inductive Wakes : {α : Type} → Prog σ α → σ → σ → Prop
  | read {α : Type} {k : σ → Prog σ α} {s u : σ} : Wakes (k s) s u → Wakes (.read k) s u
  | put {α : Type} {k : Prog σ α} {s t u : σ} : Wakes k t u → Wakes (.put t k) s u
  | here {α : Type} {ws : List Wait} {k : Nat → Prog σ α} {s u : σ} (i : Nat)
      (hr : (HasKernel.kernel s).Resumes ws (HasKernel.kernel u) i) : Wakes (.wait ws k) s u
  | later {α : Type} {ws : List Wait} {k : Nat → Prog σ α} {s u : σ} (i : Nat) (u' : σ)
      (hr : (HasKernel.kernel s).Resumes ws (HasKernel.kernel u') i) :
      Wakes (k i) u' u → Wakes (.wait ws k) s u
  | spawn {α : Type} {b : Prog σ Json} {k : TaskId → Prog σ α} {s u : σ} :
      Wakes (k (HasKernel.kernel s).spawn.2)
        (HasKernel.withKernel s (HasKernel.kernel s).spawn.1) u →
      Wakes (.spawn b k) s u

variable {α β : Type} {s s' u : σ} {a b : α}

theorem Timed.run {p : Prog σ α} (h : p.Timed s a s') : p.Run s a s' := by
  induction h with
  | done => exact .done
  | read _ ih => exact .read ih
  | put _ ih => exact .put ih
  | wait i u _ _ ih => exact .wait i u ih
  | spawn _ ih => exact .spawn ih

/-! ## Timed runs, node by node -/

@[simp] theorem timed_done : (Prog.done a : Prog σ α).Timed s b s' ↔ b = a ∧ s' = s := by
  constructor
  · rintro ⟨⟩; exact ⟨rfl, rfl⟩
  · rintro ⟨rfl, rfl⟩; exact .done

@[simp] theorem timed_pure : (pure a : Prog σ α).Timed s b s' ↔ b = a ∧ s' = s := timed_done

@[simp] theorem timed_read {k : σ → Prog σ α} : (Prog.read k).Timed s b s' ↔ (k s).Timed s b s' :=
  ⟨fun | .read h => h, .read⟩

@[simp] theorem timed_put {k : Prog σ α} {t : σ} : (Prog.put t k).Timed s b s' ↔ k.Timed t b s' :=
  ⟨fun | .put h => h, .put⟩

@[simp] theorem timed_wait {ws : List Wait} {k : Nat → Prog σ α} :
    (Prog.wait ws k).Timed s b s' ↔
      ∃ i u, (HasKernel.kernel s).Resumes ws (HasKernel.kernel u) i ∧ (k i).Timed u b s' := by
  constructor
  · rintro ⟨⟩
    rename_i i u hr h
    exact ⟨i, u, hr, h⟩
  · rintro ⟨i, u, hr, h⟩
    exact .wait i u hr h

@[simp] theorem timed_spawn {body : Prog σ Json} {k : TaskId → Prog σ α} :
    (Prog.spawn body k).Timed s b s' ↔
      (k (HasKernel.kernel s).spawn.2).Timed
        (HasKernel.withKernel s (HasKernel.kernel s).spawn.1) b s' :=
  ⟨fun | .spawn h => h, .spawn⟩

/-- A timed run of `x >>= f` is a timed run of `x`, then one of `f` on its result. -/
@[simp] theorem timed_bind {x : Prog σ α} {f : α → Prog σ β} {c : β} :
    (x >>= f).Timed s c s' ↔ ∃ a s₁, x.Timed s a s₁ ∧ (f a).Timed s₁ c s' := by
  change (Prog.bind x f).Timed s c s' ↔ _
  induction x generalizing s with
  | done a =>
    simp only [Prog.bind, timed_done]
    constructor
    · intro h
      exact ⟨a, s, ⟨rfl, rfl⟩, h⟩
    · rintro ⟨_, _, ⟨rfl, rfl⟩, h⟩
      exact h
  | read k ih => simp [Prog.bind, ih]
  | put t k ih => simp [Prog.bind, ih]
  | wait ws k ih =>
    simp only [Prog.bind, timed_wait, ih]
    constructor
    · rintro ⟨i, u, hr, a, s₁, hx, hf⟩; exact ⟨a, s₁, ⟨i, u, hr, hx⟩, hf⟩
    · rintro ⟨a, s₁, ⟨i, u, hr, hx⟩, hf⟩; exact ⟨i, u, hr, a, s₁, hx, hf⟩
  | spawn body k _ ih => simp [Prog.bind, ih]

@[simp] theorem timed_map {f : α → β} {x : Prog σ α} {c : β} :
    (f <$> x).Timed s c s' ↔ ∃ a, x.Timed s a s' ∧ c = f a := by
  change (x >>= fun a => pure (f a)).Timed s c s' ↔ _
  simp only [timed_bind, timed_pure]
  constructor
  · rintro ⟨a, s₁, hx, rfl, rfl⟩
    exact ⟨a, hx, rfl⟩
  · rintro ⟨a, hx, rfl⟩
    exact ⟨a, s', hx, rfl, rfl⟩

@[simp] theorem timed_stall [Inhabited α] : ¬ (stall : Prog σ α).Timed s a s' := by
  rintro ⟨⟩
  rename_i hr _
  exact absurd hr.pos (Nat.not_lt_zero _)

/-! ## Wake-ups, node by node -/

@[simp] theorem wakes_done : ¬ (Prog.done a : Prog σ α).Wakes s u := nofun

@[simp] theorem wakes_pure : ¬ (pure a : Prog σ α).Wakes s u := nofun

@[simp] theorem wakes_read {k : σ → Prog σ α} : (Prog.read k).Wakes s u ↔ (k s).Wakes s u :=
  ⟨fun | .read h => h, .read⟩

@[simp] theorem wakes_put {k : Prog σ α} {t : σ} : (Prog.put t k).Wakes s u ↔ k.Wakes t u :=
  ⟨fun | .put h => h, .put⟩

@[simp] theorem wakes_wait {ws : List Wait} {k : Nat → Prog σ α} :
    (Prog.wait ws k).Wakes s u ↔
      (∃ i, (HasKernel.kernel s).Resumes ws (HasKernel.kernel u) i) ∨
        ∃ i u', (HasKernel.kernel s).Resumes ws (HasKernel.kernel u') i ∧ (k i).Wakes u' u := by
  constructor
  · intro h
    cases h with
    | here i hr => exact .inl ⟨i, hr⟩
    | later i u' hr h => exact .inr ⟨i, u', hr, h⟩
  · rintro (⟨i, hr⟩ | ⟨i, u', hr, h⟩)
    · exact .here i hr
    · exact .later i u' hr h

@[simp] theorem wakes_spawn {body : Prog σ Json} {k : TaskId → Prog σ α} :
    (Prog.spawn body k).Wakes s u ↔
      (k (HasKernel.kernel s).spawn.2).Wakes
        (HasKernel.withKernel s (HasKernel.kernel s).spawn.1) u :=
  ⟨fun | .spawn h => h, .spawn⟩

/-- A task running `x >>= f` wakes while it runs `x`, or after `x` finished, while it runs `f`
on its result. -/
@[simp] theorem wakes_bind {x : Prog σ α} {f : α → Prog σ β} :
    (x >>= f).Wakes s u ↔ x.Wakes s u ∨ ∃ a s₁, x.Timed s a s₁ ∧ (f a).Wakes s₁ u := by
  change (Prog.bind x f).Wakes s u ↔ _
  induction x generalizing s with
  | done a =>
    simp only [Prog.bind, wakes_done, timed_done, false_or]
    constructor
    · intro h
      exact ⟨a, s, ⟨rfl, rfl⟩, h⟩
    · rintro ⟨_, _, ⟨rfl, rfl⟩, h⟩
      exact h
  | read k ih => simp [Prog.bind, ih]
  | put t k ih => simp [Prog.bind, ih]
  | wait ws k ih =>
    simp only [Prog.bind, wakes_wait, timed_wait, ih]
    constructor
    · rintro (⟨i, hr⟩ | ⟨i, u', hr, hx | ⟨a, s₁, hx, hf⟩⟩)
      · exact .inl (.inl ⟨i, hr⟩)
      · exact .inl (.inr ⟨i, u', hr, hx⟩)
      · exact .inr ⟨a, s₁, ⟨i, u', hr, hx⟩, hf⟩
    · rintro ((⟨i, hr⟩ | ⟨i, u', hr, hx⟩) | ⟨a, s₁, ⟨i, u', hr, hx⟩, hf⟩)
      · exact .inl ⟨i, hr⟩
      · exact .inr ⟨i, u', hr, .inl hx⟩
      · exact .inr ⟨i, u', hr, .inr ⟨a, s₁, hx, hf⟩⟩
  | spawn body k _ ih => simp [Prog.bind, ih]

@[simp] theorem wakes_map {f : α → β} {x : Prog σ α} : (f <$> x).Wakes s u ↔ x.Wakes s u := by
  change (x >>= fun a => pure (f a)).Wakes s u ↔ _
  simp

@[simp] theorem wakes_stall [Inhabited α] : ¬ (stall : Prog σ α).Wakes s u := by
  simp only [stall, wakes_wait, wakes_done, and_false, exists_false, or_false, not_exists]
  intro i hr
  exact absurd hr.pos (Nat.not_lt_zero _)

namespace Atomic

variable {p : Prog σ α}

theorem timed_iff (hp : Atomic p) : p.Timed s a s' ↔ p.Run s a s' := by
  induction hp generalizing s with
  | done => simp
  | read _ ih => simp [ih]
  | put _ ih => simp [ih]
  | spawn _ ih => simp [ih]

theorem exists_run (hp : Atomic p) : ∃ a s', p.Run s a s' := by
  induction hp generalizing s with
  | done => exact ⟨_, s, .done⟩
  | read _ ih =>
    obtain ⟨a, s', h⟩ := ih s
    exact ⟨a, s', .read h⟩
  | put _ ih =>
    obtain ⟨a, s', h⟩ := ih
    exact ⟨a, s', .put h⟩
  | spawn _ ih =>
    obtain ⟨a, s', h⟩ := ih _
    exact ⟨a, s', .spawn h⟩

theorem not_wakes (hp : Atomic p) : ¬ p.Wakes s u := by
  induction hp generalizing s with
  | done => simp
  | read _ ih => simp [ih]
  | put _ ih => simp [ih]
  | spawn _ ih => simp [ih]

theorem timed_bind {x : Prog σ α} {f : α → Prog σ β} {c : β} (hx : Atomic x) :
    (x >>= f).Timed s c s' ↔ ∃ a s₁, x.Run s a s₁ ∧ (f a).Timed s₁ c s' := by
  simp only [Prog.timed_bind, hx.timed_iff]

theorem wakes_bind {x : Prog σ α} {f : α → Prog σ β} (hx : Atomic x) :
    (x >>= f).Wakes s u ↔ ∃ a s₁, x.Run s a s₁ ∧ (f a).Wakes s₁ u := by
  simp only [Prog.wakes_bind, hx.timed_iff, hx.not_wakes, false_or]

end Atomic

theorem atomic_kernel : Atomic (kernel : Prog σ Kernel) := .read fun _ => .done

theorem atomic_onKernel {f : Kernel → Kernel × α} : Atomic (onKernel f : Prog σ α) :=
  .read fun _ => .put .done

theorem atomic_clock : Atomic (clock : Prog σ Nat) := atomic_kernel.bind fun _ => .done

theorem atomic_self : Atomic (self : Prog σ TaskId) := atomic_kernel.bind fun _ => .done

theorem atomic_timer {ms : Nat} : Atomic (timer ms : Prog σ Nat) :=
  atomic_self.bind fun _ => atomic_onKernel

theorem atomic_enable {n : Nat} : Atomic (enable n : Prog σ Nat) :=
  atomic_self.bind fun _ => atomic_onKernel

theorem atomic_dropTimer {id : Nat} : Atomic (dropTimer id : Prog σ Unit) := by
  unfold dropTimer updateKernel
  exact atomic_onKernel

theorem atomic_dropWaiter {id : Nat} : Atomic (dropWaiter id : Prog σ Unit) := by
  unfold dropWaiter updateKernel
  exact atomic_onKernel

/-! ## Timers, waiters and waits -/

@[simp] theorem run_onKernel {f : Kernel → Kernel × α} :
    (onKernel f : Prog σ α).Run s a s' ↔
      a = (f (HasKernel.kernel s)).2 ∧ s' = HasKernel.withKernel s (f (HasKernel.kernel s)).1 := by
  simp only [onKernel, run_read, run_put, run_done]

@[simp] theorem run_self {t : TaskId} :
    (self : Prog σ TaskId).Run s t s' ↔ t = (HasKernel.kernel s).current.getD 0 ∧ s' = s :=
  run_map_of_reads (f := (·.current.getD 0)) run_kernel

theorem run_timer {ms id : Nat} :
    (timer ms : Prog σ Nat).Run s id s' ↔
      id = (HasKernel.kernel s).nextId ∧
        s' = HasKernel.withKernel s ((HasKernel.kernel s).newTimer
          ((HasKernel.kernel s).current.getD 0) ms).1 := by
  simp only [timer, run_bind, run_self, run_onKernel]
  constructor
  · rintro ⟨_, _, ⟨rfl, rfl⟩, rfl, rfl⟩
    exact ⟨rfl, rfl⟩
  · rintro ⟨rfl, rfl⟩
    exact ⟨_, _, ⟨rfl, rfl⟩, rfl, rfl⟩

theorem run_enable {n id : Nat} :
    (enable n : Prog σ Nat).Run s id s' ↔
      id = (HasKernel.kernel s).nextId ∧
        s' = HasKernel.withKernel s ((HasKernel.kernel s).newWaiter
          ((HasKernel.kernel s).current.getD 0) n).1 := by
  simp only [enable, run_bind, run_self, run_onKernel]
  constructor
  · rintro ⟨_, _, ⟨rfl, rfl⟩, rfl, rfl⟩
    exact ⟨rfl, rfl⟩
  · rintro ⟨rfl, rfl⟩
    exact ⟨_, _, ⟨rfl, rfl⟩, rfl, rfl⟩

theorem run_dropTimer {id : Nat} {v : Unit} :
    (dropTimer id : Prog σ Unit).Run s v s' ↔
      s' = HasKernel.withKernel s ((HasKernel.kernel s).dropTimer id) := by
  simp [dropTimer, updateKernel]

theorem run_dropWaiter {id : Nat} {v : Unit} :
    (dropWaiter id : Prog σ Unit).Run s v s' ↔
      s' = HasKernel.withKernel s ((HasKernel.kernel s).dropWaiter id) := by
  simp [dropWaiter, updateKernel]

@[simp] theorem timed_waitAny {ws : List Wait} {i : Nat} :
    (waitAny ws : Prog σ Nat).Timed s i s' ↔
      (HasKernel.kernel s).Resumes ws (HasKernel.kernel s') i := by
  simp only [waitAny, timed_wait, timed_done]
  constructor
  · rintro ⟨_, _, hr, rfl, rfl⟩
    exact hr
  · intro hr
    exact ⟨i, s', hr, rfl, rfl⟩

@[simp] theorem wakes_waitAny {ws : List Wait} :
    (waitAny ws : Prog σ Nat).Wakes s u ↔
      ∃ i, (HasKernel.kernel s).Resumes ws (HasKernel.kernel u) i := by
  simp [waitAny]

/-- A timed sleep: the runtime runs the task again after its new timer, which is then
dropped. -/
theorem timed_sleep {ms : Nat} {v : Unit} :
    (sleep ms : Prog σ Unit).Timed s v s' ↔
      ∃ i u, (HasKernel.kernel (HasKernel.withKernel s ((HasKernel.kernel s).newTimer
          ((HasKernel.kernel s).current.getD 0) ms).1)).Resumes
          [.timer (HasKernel.kernel s).nextId] (HasKernel.kernel u) i ∧
        s' = HasKernel.withKernel u ((HasKernel.kernel u).dropTimer (HasKernel.kernel s).nextId) := by
  simp only [sleep, atomic_timer.timed_bind, run_timer]
  constructor
  · rintro ⟨_, _, ⟨rfl, rfl⟩, hr⟩
    rw [timed_bind] at hr
    obtain ⟨i, u, hu, hr⟩ := hr
    rw [atomic_dropTimer.timed_iff, run_dropTimer] at hr
    exact ⟨i, u, timed_waitAny.1 hu, hr⟩
  · rintro ⟨i, u, hu, rfl⟩
    refine ⟨_, _, ⟨rfl, rfl⟩, ?_⟩
    rw [timed_bind]
    exact ⟨i, u, timed_waitAny.2 hu, atomic_dropTimer.timed_iff.2 (run_dropTimer.2 rfl)⟩

/-- A sleeping task is run again only once, after its timer. -/
theorem wakes_sleep {ms : Nat} :
    (sleep ms : Prog σ Unit).Wakes s u ↔
      ∃ i, (HasKernel.kernel (HasKernel.withKernel s ((HasKernel.kernel s).newTimer
          ((HasKernel.kernel s).current.getD 0) ms).1)).Resumes
          [.timer (HasKernel.kernel s).nextId] (HasKernel.kernel u) i := by
  simp only [sleep, atomic_timer.wakes_bind, run_timer]
  constructor
  · rintro ⟨_, _, ⟨rfl, rfl⟩, hr⟩
    rw [wakes_bind] at hr
    rcases hr with hu | ⟨_, _, -, hr⟩
    · exact wakes_waitAny.1 hu
    · exact absurd hr atomic_dropTimer.not_wakes
  · rintro ⟨i, hu⟩
    refine ⟨_, _, ⟨rfl, rfl⟩, ?_⟩
    rw [wakes_bind]
    exact Or.inl (wakes_waitAny.2 ⟨i, hu⟩)

/-! ## Runs that end -/

/-- A program that ends however the runtime keeps its promise: at each of its waits a pending
timer is among the things waited on, so the runtime runs the task again, and every way it may
do so leads to an end. The derivation is finite: no timed run goes on for ever or stops at a
wait. -/
inductive Ends : {α : Type} → Prog σ α → σ → Prop
  | done {α : Type} {a : α} {s : σ} : Ends (.done a) s
  | read {α : Type} {k : σ → Prog σ α} {s : σ} : Ends (k s) s → Ends (.read k) s
  | put {α : Type} {k : Prog σ α} {s t : σ} : Ends k t → Ends (.put t k) s
  | wait {α : Type} {ws : List Wait} {k : Nat → Prog σ α} {s : σ} (tm : Timer)
      (htm : tm ∈ (HasKernel.kernel s).timers) (hw : Wait.timer tm.id ∈ ws) :
      (∀ i u, (HasKernel.kernel s).Resumes ws (HasKernel.kernel u) i → Ends (k i) u) →
      Ends (.wait ws k) s
  | spawn {α : Type} {b : Prog σ Json} {k : TaskId → Prog σ α} {s : σ} :
      Ends (k (HasKernel.kernel s).spawn.2)
        (HasKernel.withKernel s (HasKernel.kernel s).spawn.1) →
      Ends (.spawn b k) s

/-- `x >>= f` ends when `x` does and `f` does after each of its timed runs. -/
theorem Ends.bind {x : Prog σ α} {f : α → Prog σ β} (hx : x.Ends s)
    (hf : ∀ a s₁, x.Timed s a s₁ → (f a).Ends s₁) : (x >>= f).Ends s := by
  change (Prog.bind x f).Ends s
  induction hx with
  | done => exact hf _ _ .done
  | read _ ih => exact .read (ih fun a s₁ h => hf a s₁ (.read h))
  | put _ ih => exact .put (ih fun a s₁ h => hf a s₁ (.put h))
  | wait tm htm hw _ ih =>
    exact .wait tm htm hw fun i u hr => ih i u hr fun a s₁ h => hf a s₁ (.wait i u hr h)
  | spawn _ ih => exact .spawn (ih fun a s₁ h => hf a s₁ (.spawn h))

theorem Atomic.ends {p : Prog σ α} (hp : Atomic p) : p.Ends s := by
  induction hp generalizing s with
  | done => exact .done
  | read _ ih => exact .read (ih s)
  | put _ ih => exact .put ih
  | spawn _ ih => exact .spawn (ih _)

@[simp] theorem not_ends_stall [Inhabited α] : ¬ (stall : Prog σ α).Ends s := by
  rintro (_ | _ | _ | ⟨tm, _, hw, _⟩ | _)
  cases hw

/-! ## Coming to a wait -/

/-- `p`, started in `s`, comes to `q` in state `u` without waiting: the steps before `q` run
with no other task in between. -/
inductive Reaches : {α : Type} → Prog σ α → σ → Prog σ α → σ → Prop
  | refl {α : Type} {p : Prog σ α} {s : σ} : Reaches p s p s
  | read {α : Type} {k : σ → Prog σ α} {s : σ} {q : Prog σ α} {u : σ} :
      Reaches (k s) s q u → Reaches (.read k) s q u
  | put {α : Type} {k : Prog σ α} {s t : σ} {q : Prog σ α} {u : σ} :
      Reaches k t q u → Reaches (.put t k) s q u
  | spawn {α : Type} {b : Prog σ Json} {k : TaskId → Prog σ α} {s : σ} {q : Prog σ α}
      {u : σ} :
      Reaches (k (HasKernel.kernel s).spawn.2)
        (HasKernel.withKernel s (HasKernel.kernel s).spawn.1) q u →
      Reaches (.spawn b k) s q u

namespace Reaches

variable {p q : Prog σ α} {v : σ}

theorem trans {r : Prog σ α} {w : σ} (h₁ : Reaches p s q u) (h₂ : Reaches q u r w) :
    Reaches p s r w := by
  induction h₁ with
  | refl => exact h₂
  | read _ ih => exact .read (ih h₂)
  | put _ ih => exact .put (ih h₂)
  | spawn _ ih => exact .spawn (ih h₂)

theorem timed (h : Reaches p s q u) : p.Timed s a s' ↔ q.Timed u a s' := by
  induction h with
  | refl => exact Iff.rfl
  | read _ ih => rw [timed_read, ih]
  | put _ ih => rw [timed_put, ih]
  | spawn _ ih => rw [timed_spawn, ih]

theorem wakes (h : Reaches p s q u) : p.Wakes s v ↔ q.Wakes u v := by
  induction h with
  | refl => exact Iff.rfl
  | read _ ih => rw [wakes_read, ih]
  | put _ ih => rw [wakes_put, ih]
  | spawn _ ih => rw [wakes_spawn, ih]

theorem ends (h : Reaches p s q u) (hq : q.Ends u) : p.Ends s := by
  induction h with
  | refl => exact hq
  | read _ ih => exact .read (ih hq)
  | put _ ih => exact .put (ih hq)
  | spawn _ ih => exact .spawn (ih hq)

theorem bind {f : α → Prog σ β} (h : Reaches p s q u) : Reaches (p >>= f) s (q >>= f) u := by
  change Reaches (Prog.bind p f) s (Prog.bind q f) u
  induction h with
  | refl => exact .refl
  | read _ ih => exact .read ih
  | put _ ih => exact .put ih
  | spawn _ ih => exact .spawn ih

theorem of_run (hp : Atomic p) (hr : p.Run s a s') : Reaches p s (.done a) s' := by
  induction hp generalizing s with
  | done =>
    obtain ⟨rfl, rfl⟩ := run_done.1 hr
    exact .refl
  | read _ ih => exact .read (ih _ (run_read.1 hr))
  | put _ ih => exact .put (ih (run_put.1 hr))
  | spawn _ ih => exact .spawn (ih _ (run_spawn.1 hr))

/-- After a program that never waits, `p >>= f` comes to `f` on its result. -/
theorem bind_run {f : α → Prog σ β} (hp : Atomic p) (hr : p.Run s a s') :
    Reaches (p >>= f) s (f a) s' :=
  (of_run hp hr).bind

end Reaches

end Prog

end Backplane.Fiber

namespace Backplane.Duration

theorem min_nanos_le_left (a b : Duration) : (Duration.min a b).nanos ≤ a.nanos := by
  unfold Duration.min
  split <;> omega

theorem min_nanos_le_right (a b : Duration) : (Duration.min a b).nanos ≤ b.nanos := by
  unfold Duration.min
  split <;> omega

end Backplane.Duration

namespace Backplane.Host

open Backplane.Fiber Prog

variable {h h' : Host}

@[simp] theorem hasKernel_kernel (h : Host) : HasKernel.kernel h = h.kernel := rfl

@[simp] theorem hasKernel_withKernel (h : Host) (k : Kernel) :
    HasKernel.withKernel h k = { h with kernel := k } := rfl

/-- A `select` ends as a wait on its branches in order does: whichever branch the runtime
tries first, it takes one that is over, with what the runtime promises of it. -/
theorem timed_select {ws : List Wait} {j : Nat} :
    (select ws : Act Nat).Timed h j h' ↔ h.kernel.Resumes ws h'.kernel j := by
  simp only [select, atomic_onKernel.timed_bind, run_onKernel, hasKernel_kernel,
    hasKernel_withKernel, timed_bind, timed_waitAny, timed_pure,
    ← List.rotate_eq_drop_append_take_mod, Nat.add_mod_mod]
  constructor
  · rintro ⟨_, _, ⟨rfl, rfl⟩, i, _, hi, rfl, rfl⟩
    exact hi.of_rotate.of_eq h.kernel.takeCoin_clock h.kernel.takeCoin_timers
  · intro hj
    obtain ⟨i, hi, rfl⟩ :=
      (hj.of_eq h.kernel.takeCoin_clock.symm h.kernel.takeCoin_timers.symm).rotate
        h.kernel.takeCoin.2
    exact ⟨_, _, ⟨rfl, rfl⟩, i, _, hi, rfl, rfl⟩

theorem wakes_select {ws : List Wait} {u : Host} :
    (select ws : Act Nat).Wakes h u ↔ ∃ j, h.kernel.Resumes ws u.kernel j := by
  simp only [select, atomic_onKernel.wakes_bind, run_onKernel, hasKernel_kernel,
    hasKernel_withKernel, wakes_bind, wakes_waitAny, wakes_pure,
    ← List.rotate_eq_drop_append_take_mod]
  constructor
  · rintro ⟨_, _, ⟨rfl, rfl⟩, ⟨i, hi⟩ | ⟨_, _, -, hu⟩⟩
    · exact ⟨_, hi.of_rotate.of_eq h.kernel.takeCoin_clock h.kernel.takeCoin_timers⟩
    · exact hu.elim
  · rintro ⟨j, hj⟩
    obtain ⟨i, hi, -⟩ :=
      (hj.of_eq h.kernel.takeCoin_clock.symm h.kernel.takeCoin_timers.symm).rotate
        h.kernel.takeCoin.2
    exact ⟨_, _, ⟨rfl, rfl⟩, .inl ⟨i, hi⟩⟩

theorem atomic_now : Atomic now := atomic_get.bind fun _ => .done

theorem atomic_uuid : Atomic uuid := atomic_modifyGet

theorem atomic_onCache {α : Type} [Inhabited α] {i : Nat} {op : Cache.Op α} :
    Atomic (onCache i op) := atomic_modifyGet

/-! ## Timers in whole milliseconds -/

theorem ticks_ofMillis (m : Nat) : ticks (Duration.ofMillis m) = m := by
  simp only [ticks, Duration.ofMillis, Duration.nanosPerMilli]
  omega

theorem ticks_mono {a b : Duration} (h : a.nanos ≤ b.nanos) : ticks a ≤ ticks b := by
  unfold ticks
  exact Nat.div_le_div_right (Nat.sub_le_sub_right (Nat.add_le_add_right h _) 1)

theorem ticks_saturatingAdd_le (d : Duration) (m : Nat) :
    ticks (d.saturatingAdd (Duration.ofMillis m)) ≤ ticks d + m := by
  calc ticks (d.saturatingAdd (Duration.ofMillis m))
      ≤ ticks ⟨d.nanos + m * Duration.nanosPerMilli⟩ := ticks_mono (Nat.min_le_left _ _)
    _ = ticks d + m := by
      simp only [ticks, Duration.nanosPerMilli]
      omega

theorem ends_sleep {ms : Nat} : (sleep ms : Act Unit).Ends h := by
  refine atomic_timer.ends.bind fun tm h₁ ht => ?_
  obtain ⟨rfl, rfl⟩ := run_timer.1 (atomic_timer.timed_iff.1 ht)
  refine Ends.bind ?_ fun _ _ _ => atomic_dropTimer.ends
  exact .wait _ (Kernel.mem_newTimer _ ms) (List.mem_singleton_self _) fun _ _ _ => .done

end Backplane.Host
