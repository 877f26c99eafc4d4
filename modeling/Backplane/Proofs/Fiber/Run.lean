import Backplane.Fiber.Prog
import Backplane.Host

/-!
# Runs of one task among others

What the program of one task may do while other tasks share its state. The scheduler runs a
task until it waits again, so between two waits the task is alone and reads what it wrote; at
a wait the other tasks may run, and the task goes on in whatever state they leave, with
whichever of the things it waits for the scheduler picks. Nothing is assumed about the other
tasks: the state and the position a task gets at each wait are an oracle, and a statement
about every run holds under every schedule.

A task it starts is registered in the kernel as the scheduler registers it, so the ids it
joins later are the ones it was given.
-/

namespace Backplane.Fiber.Prog

variable {σ : Type} [HasKernel σ]

/-- The runs of a task's program: started in state `s`, it may finish with `a` in state `s'`. -/
inductive Run : {α : Type} → Prog σ α → σ → α → σ → Prop
  | done {α : Type} {a : α} {s : σ} : Run (.done a) s a s
  | read {α : Type} {k : σ → Prog σ α} {s s' : σ} {a : α} :
      Run (k s) s a s' → Run (.read k) s a s'
  | put {α : Type} {k : Prog σ α} {s t s' : σ} {a : α} :
      Run k t a s' → Run (.put t k) s a s'
  /-- At a wait the others run: the task goes on in any state `u`, after any position `i`. -/
  | wait {α : Type} {ws : List Wait} {k : Nat → Prog σ α} {s s' : σ} {a : α} (i : Nat) (u : σ) :
      Run (k i) u a s' → Run (.wait ws k) s a s'
  | spawn {α : Type} {b : Prog σ Json} {k : TaskId → Prog σ α} {s s' : σ} {a : α} :
      Run (k (HasKernel.kernel s).spawn.2)
        (HasKernel.withKernel s (HasKernel.kernel s).spawn.1) a s' →
      Run (.spawn b k) s a s'

variable {α β : Type} {s s' : σ} {a b : α}

@[simp] theorem run_done : (Prog.done a : Prog σ α).Run s b s' ↔ b = a ∧ s' = s := by
  constructor
  · rintro ⟨⟩; exact ⟨rfl, rfl⟩
  · rintro ⟨rfl, rfl⟩; exact .done

@[simp] theorem run_pure : (pure a : Prog σ α).Run s b s' ↔ b = a ∧ s' = s := run_done

@[simp] theorem run_read {k : σ → Prog σ α} : (Prog.read k).Run s b s' ↔ (k s).Run s b s' :=
  ⟨fun | .read h => h, .read⟩

@[simp] theorem run_put {k : Prog σ α} {t : σ} : (Prog.put t k).Run s b s' ↔ k.Run t b s' :=
  ⟨fun | .put h => h, .put⟩

@[simp] theorem run_wait {ws : List Wait} {k : Nat → Prog σ α} :
    (Prog.wait ws k).Run s b s' ↔ ∃ i u, (k i).Run u b s' :=
  ⟨fun | .wait i u h => ⟨i, u, h⟩, fun ⟨i, u, h⟩ => .wait i u h⟩

@[simp] theorem run_spawn {body : Prog σ Json} {k : TaskId → Prog σ α} :
    (Prog.spawn body k).Run s b s' ↔
      (k (HasKernel.kernel s).spawn.2).Run
        (HasKernel.withKernel s (HasKernel.kernel s).spawn.1) b s' :=
  ⟨fun | .spawn h => h, .spawn⟩

/-- A wait may be over at once, with nothing changed in between. -/
theorem Run.wait_now {ws : List Wait} {k : Nat → Prog σ α} (h : (k 0).Run s b s') :
    (Prog.wait ws k).Run s b s' :=
  .wait 0 s h

@[simp] theorem run_bind {x : Prog σ α} {f : α → Prog σ β} {c : β} :
    (x >>= f).Run s c s' ↔ ∃ a s₁, x.Run s a s₁ ∧ (f a).Run s₁ c s' := by
  change (Prog.bind x f).Run s c s' ↔ _
  induction x generalizing s with
  | done a =>
    simp only [Prog.bind, run_done]
    exact ⟨fun h => ⟨a, s, ⟨rfl, rfl⟩, h⟩, fun ⟨_, _, ⟨ha, hs⟩, h⟩ => ha ▸ hs ▸ h⟩
  | read k ih => simp [Prog.bind, ih]
  | put t k ih => simp [Prog.bind, ih]
  | wait ws k ih =>
    simp only [Prog.bind, run_wait, ih]
    constructor
    · rintro ⟨i, u, a, s₁, hx, hf⟩; exact ⟨a, s₁, ⟨i, u, hx⟩, hf⟩
    · rintro ⟨a, s₁, ⟨i, u, hx⟩, hf⟩; exact ⟨i, u, a, s₁, hx, hf⟩
  | spawn body k _ ih => simp [Prog.bind, ih]

/-! ## Steps that do not wait -/

@[simp] theorem run_get {t : σ} : (get : Prog σ σ).Run s t s' ↔ t = s ∧ s' = s := by
  simp [get]

@[simp] theorem run_modifyGet {f : σ → α × σ} :
    (modifyGet f).Run s a s' ↔ a = (f s).1 ∧ s' = (f s).2 := by
  simp [modifyGet]

@[simp] theorem run_modify {f : σ → σ} {u : Unit} : (modify f).Run s u s' ↔ s' = f s := by
  simp [modify]

@[simp] theorem run_kernel {k : Kernel} :
    (kernel : Prog σ Kernel).Run s k s' ↔ k = HasKernel.kernel s ∧ s' = s := by
  simp [kernel]

@[simp] theorem run_map {f : α → β} {x : Prog σ α} {c : β} :
    (f <$> x).Run s c s' ↔ ∃ a, x.Run s a s' ∧ c = f a := by
  change (x >>= fun a => pure (f a)).Run s c s' ↔ _
  simp only [run_bind, run_pure]
  constructor
  · rintro ⟨a, s₁, hx, rfl, rfl⟩
    exact ⟨a, hx, rfl⟩
  · rintro ⟨a, hx, rfl⟩
    exact ⟨a, s', hx, rfl, rfl⟩

theorem run_map_of_reads {x : Prog σ α} {g : σ → α}
    (hx : ∀ {a s'}, x.Run s a s' ↔ a = g s ∧ s' = s) {f : α → β} {c : β} :
    (f <$> x).Run s c s' ↔ c = f (g s) ∧ s' = s := by
  rw [run_map]
  constructor
  · rintro ⟨a, ha, rfl⟩
    obtain ⟨rfl, rfl⟩ := hx.1 ha
    exact ⟨rfl, rfl⟩
  · rintro ⟨rfl, rfl⟩
    exact ⟨_, hx.2 ⟨rfl, rfl⟩, rfl⟩

@[simp] theorem run_isCancelled {t : Nat} {c : Bool} :
    (isCancelled t : Prog σ Bool).Run s c s' ↔ c = (HasKernel.kernel s).isCancelled t ∧ s' = s :=
  run_map_of_reads (f := (·.isCancelled t)) run_kernel

@[simp] theorem run_clock {c : Nat} :
    (clock : Prog σ Nat).Run s c s' ↔ c = (HasKernel.kernel s).clock ∧ s' = s :=
  run_map_of_reads (f := (·.clock)) run_kernel

/-! ## Programs that leave part of the state alone -/

/-- Every run of `p` ends with `f` of the state as it began. Only a program that does not wait
can have this property for a part of the state the other tasks may change. -/
def Fixes (f : σ → β) (p : Prog σ α) : Prop := ∀ ⦃s a s'⦄, p.Run s a s' → f s' = f s

section Fixes

variable {γ : Type} {f : σ → β}

theorem fixes_pure : Fixes f (pure a : Prog σ α) := by
  intro s b s' h
  rw [(run_pure.1 h).2]

theorem Fixes.bind {x : Prog σ α} {k : α → Prog σ γ} (hx : Fixes f x) (hk : ∀ a, Fixes f (k a)) :
    Fixes f (x >>= k) := by
  intro s c s' h
  obtain ⟨a, s₁, h₁, h₂⟩ := run_bind.1 h
  rw [hk a h₂, hx h₁]

theorem fixes_get : Fixes f (get : Prog σ σ) := by
  intro s t s' h
  rw [(run_get.1 h).2]

theorem fixes_modify {g : σ → σ} (hg : ∀ s, f (g s) = f s) : Fixes f (modify g) := by
  intro s u s' h
  rw [run_modify.1 h, hg]

theorem fixes_modifyGet {g : σ → α × σ} (hg : ∀ s, f (g s).2 = f s) : Fixes f (modifyGet g) := by
  intro s a s' h
  rw [(run_modifyGet.1 h).2, hg]

/-- A change of the kernel alone fixes any part of the state the kernel is not. -/
theorem fixes_onKernel {g : Kernel → Kernel × α} (hg : ∀ s k, f (HasKernel.withKernel s k) = f s) :
    Fixes f (onKernel g : Prog σ α) := by
  intro s a s' h
  simp only [onKernel, run_read, run_put, run_done] at h
  rw [h.2, hg]

end Fixes

/-- Changes made one after another, none of which waits, are their composition. -/
theorem run_forM_modify {xs : List α} {f : α → σ → σ} {u : Unit} :
    (xs.forM fun x => modify (f x)).Run s u s' ↔ s' = xs.foldl (fun s x => f x s) s := by
  induction xs generalizing s with
  | nil => simp [List.forM]
  | cons x xs ih => simp [List.forM]; exact ih

end Backplane.Fiber.Prog

namespace Backplane.Host

open Backplane.Fiber Prog

/-! ## Steps of a task on a host -/

/-- The wall clock of a host. -/
def instant (h : Host) : Stamp := Stamp.ofMillis (h.startMs + h.kernel.clock)

variable {h h' : Host}

@[simp] theorem run_now {t : Stamp} : now.Run h t h' ↔ t = h.instant ∧ h' = h := by
  change (instant <$> (get : Act Host)).Run h t h' ↔ _
  exact run_map_of_reads (g := fun h => h) run_get

theorem run_onCache {α : Type} [Inhabited α] {i : Nat} {op : Cache.Op α} {c : Cache.Store}
    (hc : h.caches[i]? = some c) {a : α} :
    (onCache i op).Run h a h' ↔
      a = (op.run c).1 ∧ h' = { h with caches := h.caches.set i (op.run c).2 } := by
  simp only [onCache, run_modifyGet, hc]
  exact Iff.rfl

theorem run_uuid {u : String} (hu : uuid.Run h u h') : h'.caches = h.caches := by
  simp only [uuid, run_modifyGet] at hu
  rw [hu.2]

end Backplane.Host
