import Backplane.Proofs.Jobs.Settlement
import Backplane.Proofs.Fiber.Timed

/-!
# A run's renewer: joined, and abandoned

A run of `Jobs.work` keeps the lease of its entry and its lock alive from a task of its own, the
renewer (`Jobs.renewal`), which renews both once per interval until the run cancels its stop
token. Whether a renewer whose stop token is cancelled just as its interval runs out renews
once more is the runtime's choice (`select`); what ends it for certain is the run's join: once
the job has returned, the run cancels the stop token and waits for the renewer to finish
before it settles the entry.

`returned_run_stopped_renewer` says so of every timed run of `Jobs.runOnce` that returns: a run
that took no entry, or whose lock timed out, started no renewer; any other started the renewal
loop as a task of its own (`work_reaches_renewer`), and that task has finished by the time the
run returns. A join ends only once its task has finished (`timed_join`), and the steps after it,
settling the entry and releasing the lock, wake tasks but never bring back a finished one
(`KeepsDone`).

Nothing else stops a renewer. A run under a time limit (`Prog.withTimeout`) is abandoned where
it waits, and the tasks it started run on; a run abandoned while its job works never cancels
the stop token, and its renewer keeps the entry leased (`abandoned_run_keeps_renewing`).
-/

open Backplane.Fiber Backplane.Fiber.Prog

namespace Backplane.Fiber.Kernel

/-! ## Finished tasks stay finished -/

variable {k : Kernel} {t : TaskId}

theorem isDone_of_tasks {k' : Kernel} (h : k'.tasks = k.tasks) : k'.isDone t = k.isDone t := by
  simp only [isDone, task?, h]

theorem task?_setPhase {u : TaskId} {p : Phase} :
    (k.modifyTask u ({ · with phase := p })).task? t =
      (k.task? t).map fun r => if r.id == u then { r with phase := p } else r := by
  have hp : ((fun x : Task => x.id == t) ∘ fun r => if r.id == u then { r with phase := p } else r) =
      (·.id == t) := by
    funext r
    by_cases hr : r.id = u <;> simp [hr]
  unfold modifyTask task?
  rw [List.find?_map, hp]

@[simp] theorem isDone_wake (u : TaskId) : (k.wake u).isDone t = k.isDone t := by
  unfold wake
  split
  · rfl
  split
  · rfl
  split
  · next _ _ hu =>
    refine (isDone_of_tasks (k := k.modifyTask u _) rfl).trans ?_
    by_cases htu : t = u
    · subst htu
      simp only [isDone, task?_setPhase, hu, Option.map_some]
      split_ifs <;> rfl
    · simp only [isDone, task?_setPhase]
      cases ht : k.task? t with
      | none => rfl
      | some r =>
        have hr : r.id = t := by simpa using List.find?_some ht
        simp [hr, htu]
  · rfl

@[simp] theorem isDone_wakeAll (ts : List TaskId) : (k.wakeAll ts).isDone t = k.isDone t := by
  induction ts generalizing k with
  | nil => rfl
  | cons u ts ih =>
    simp only [wakeAll, List.foldl_cons] at ih ⊢
    rw [ih, isDone_wake]

@[simp] theorem isDone_notifyWaiters (n : Nat) : (k.notifyWaiters n).isDone t = k.isDone t := by
  simp only [notifyWaiters, isDone_wakeAll]
  exact isDone_of_tasks rfl

@[simp] theorem isDone_raise (n : Nat) : (k.raise n).isDone t = k.isDone t := by
  simp only [raise, isDone_wakeAll]
  exact isDone_of_tasks rfl

theorem finish_clock {r : Json} : (k.finish t r).clock = k.clock := by
  unfold finish
  dsimp only
  split
  · unfold wake
    split
    · rfl
    split
    · rfl
    split <;> rfl
  · rfl

end Backplane.Fiber.Kernel

namespace Backplane.Jobs

open Host

/-! ## Steps that keep finished tasks finished -/

/-- A program after which every task that had finished still has. -/
def KeepsDone {α : Type} (p : Act α) : Prop :=
  ∀ ⦃h a h'⦄, p.Run h a h' → ∀ t, h.kernel.isDone t = true → h'.kernel.isDone t = true

section KeepsDone

variable {α β : Type} {p : Act α}

theorem KeepsDone.bind {f : α → Act β} (hp : KeepsDone p) (hf : ∀ a, KeepsDone (f a)) :
    KeepsDone (p >>= f) := by
  intro h b h' hr t ht
  obtain ⟨a, h₁, hp', hf'⟩ := run_bind.1 hr
  exact hf a hf' t (hp hp' t ht)

theorem KeepsDone.of_kernel (hk : ∀ ⦃h a h'⦄, p.Run h a h' → h'.kernel = h.kernel) :
    KeepsDone p := by
  intro h a h' hr t ht
  rw [hk hr]
  exact ht

theorem keepsDone_updateKernel {f : Kernel → Kernel} (hf : ∀ k t, (f k).isDone t = k.isDone t) :
    KeepsDone (updateKernel f : Act Unit) := by
  intro h a h' hr t ht
  simp only [updateKernel, run_onKernel, hasKernel_kernel, hasKernel_withKernel] at hr
  rw [hr.2, hf]
  exact ht

theorem keepsDone_pure {a : α} : KeepsDone (pure a : Act α) :=
  .of_kernel fun _ _ _ hr => by rw [(run_pure.1 hr).2]

theorem keepsDone_get : KeepsDone (get : Act Host) :=
  .of_kernel fun _ _ _ hr => by rw [(run_get.1 hr).2]

theorem keepsDone_now : KeepsDone now :=
  .of_kernel fun _ _ _ hr => by rw [(run_now.1 hr).2]

theorem keepsDone_modifyGet {f : Host → α × Host} (hf : ∀ h, (f h).2.kernel = h.kernel) :
    KeepsDone (modifyGet f : Act α) :=
  .of_kernel fun _ _ _ hr => by rw [(run_modifyGet.1 hr).2, hf]

theorem keepsDone_forM {xs : List β} {f : β → Act Unit} (hf : ∀ x, KeepsDone (f x)) :
    KeepsDone (xs.forM f) := by
  induction xs with
  | nil => exact keepsDone_pure
  | cons x xs ih => exact (hf x).bind fun _ => ih

theorem KeepsDone.map {p : Act α} {f : α → β} (hp : KeepsDone p) : KeepsDone (f <$> p) := by
  intro h b h' hr t ht
  obtain ⟨a, hp', -⟩ := run_map.1 hr
  exact hp hp' t ht

theorem keepsDone_modify {f : Host → Host} (hf : ∀ h, (f h).kernel = h.kernel) :
    KeepsDone (modify f) :=
  .of_kernel fun _ _ _ hr => by rw [run_modify.1 hr, hf]

theorem keepsDone_notifyWaiters {n : Nat} : KeepsDone (notifyWaiters n : Act Unit) :=
  keepsDone_updateKernel fun _ _ => Kernel.isDone_notifyWaiters _

theorem keepsDone_raise {n : Nat} : KeepsDone (raise n : Act Unit) :=
  keepsDone_updateKernel fun _ _ => Kernel.isDone_raise _

theorem keepsDone_onCache [Inhabited α] {i : Nat} {op : Cache.Op α} : KeepsDone (onCache i op) :=
  keepsDone_modifyGet fun h => by split <;> rfl

theorem keepsDone_onStore {f : Queue.Store → Queue.Store × α} : KeepsDone (Queue.onStore f) :=
  keepsDone_modifyGet fun _ => rfl

theorem keepsDone_emitQueueEvents {evs : List Queue.Event} : KeepsDone (emitQueueEvents evs) :=
  keepsDone_forM fun _ => keepsDone_modify fun _ => rfl

theorem keepsDone_forIn {xs : List β} {init : PUnit} {f : β → PUnit → Act (ForInStep PUnit)}
    (hf : ∀ x u, KeepsDone (f x u)) : KeepsDone (forIn xs init f) := by
  induction xs generalizing init with
  | nil => exact keepsDone_pure
  | cons x xs ih =>
    rw [List.forIn_cons]
    refine (hf x init).bind fun r => ?_
    cases r with
    | done u => exact keepsDone_pure
    | yield u => exact ih

theorem keepsDone_publish {topic : String} {payload : List UInt8} :
    KeepsDone (publish topic payload) := by
  refine keepsDone_get.bind fun h => ?_
  split
  · exact keepsDone_pure
  · refine (keepsDone_modifyGet fun _ => rfl).bind fun _ => ?_
    exact (keepsDone_forIn fun _ _ => keepsDone_raise.bind fun _ => keepsDone_pure).bind
      fun _ => keepsDone_pure

theorem keepsDone_wakeConsumers : KeepsDone Queue.wakeConsumers :=
  keepsDone_get.bind fun _ => keepsDone_notifyWaiters

theorem keepsDone_finish {e : Queue.Leased} {r : JobResult} : KeepsDone (finish e r) := by
  unfold finish
  split
  · unfold Queue.complete
    refine keepsDone_now.bind fun _ => keepsDone_onStore.bind fun ev => ?_
    split
    · exact keepsDone_emitQueueEvents.bind fun _ => keepsDone_pure
    · exact keepsDone_pure
  · unfold Queue.giveBack
    refine (keepsDone_now.bind fun _ => (keepsDone_get.bind fun _ => keepsDone_pure).bind fun _ =>
      keepsDone_onStore.bind fun evs => ?_).bind fun _ => keepsDone_pure
    split
    · exact keepsDone_pure
    · dsimp only
      split
      · exact keepsDone_emitQueueEvents.bind fun _ => keepsDone_pure
      · exact keepsDone_wakeConsumers.bind fun _ =>
          keepsDone_emitQueueEvents.bind fun _ => keepsDone_pure

theorem keepsDone_release {p : Lock.Provider} {l : Lock.Grant} : KeepsDone (p.release l).run := by
  simp only [Lock.Provider.release, Lock.onHost, ExceptT.run_lift]
  refine KeepsDone.map ?_
  split
  · refine keepsDone_now.bind fun _ => keepsDone_onCache.bind fun done => ?_
    split
    · refine keepsDone_notifyWaiters.bind fun _ => ?_
      split
      · exact keepsDone_publish.bind fun _ => keepsDone_pure
      · exact keepsDone_pure
    · exact keepsDone_pure
  · exact keepsDone_pure

end KeepsDone

/-! ## The renewer of a run -/

section renewer

variable {h h' : Host} {rn : Runner} {c : Nat} {e : Queue.Leased} {v : Json}
  {held : Option (Lock.Provider × Lock.Grant)} {g : Host} {x : JobResult}
  {r : Except JobError (Option JobResult)}

/-- A join ends only once its task has finished. -/
theorem timed_join {t : TaskId} {j : Json} (hr : (join t : Act Json).Timed h j h') :
    h'.kernel.isDone t = true := by
  unfold join at hr
  rw [timed_bind] at hr
  obtain ⟨i, u, hu, hr⟩ := hr
  rw [timed_waitAny] at hu
  have hi : i = 0 := by
    have := hu.pos
    simp only [List.length_singleton] at this
    omega
  subst hi
  have hd := hu.joined t rfl
  have hrest := hr.run
  simp only [run_bind, run_kernel, run_pure] at hrest
  obtain ⟨_, _, ⟨rfl, rfl⟩, -, rfl⟩ := hrest
  exact hd

/-- A join may end at once, its task finishing just then. -/
theorem timed_join_now {α : Type} {t : TaskId} {j : Json} {k : Nat → Act α} {a : α}
    (hd : (h.kernel.finish t j).isDone t = true)
    (hk : (k 0).Timed { h with kernel := h.kernel.finish t j } a h') :
    (Prog.wait [.finished t] k).Timed h a h' :=
  .wait 0 _ ⟨by simp, by simp [Kernel.finish_clock], fun _ _ hw => by simp at hw,
    fun _ _ he => by simp at he, fun u he => by simp at he; subst he; exact hd⟩ hk

/-- The renewal loop a run of `work` on entry `e` with lock `held` starts, with its job token
`jc` and its stop token `stop`. -/
def renewerOf (rn : Runner) (e : Queue.Leased) (held : Option (Lock.Provider × Lock.Grant))
    (jc stop : Nat) : Act Json :=
  renewal e (e.leaseUntil.since e.dequeuedAt) rn.options.lock.lease
    (ticks (rn.options.renewalFor (e.leaseUntil.since e.dequeuedAt) held.isSome)) jc stop held
    forever

theorem work_eq : ∃ rest : Nat → Nat → TaskId → Act JobResult,
    work rn c e v held = newToken (some c) >>= fun jc => newToken none >>= fun stop =>
      .spawn (renewerOf rn e held jc stop) (rest jc stop) :=
  ⟨_, rfl⟩

/-- A run of `work` begun in `g` comes, without waiting, to start its renewal loop as a task of
its own: task `g.kernel.nextId + 2`, after the run's job token and stop token. -/
theorem work_reaches_renewer :
    ∃ k u, Reaches (work rn c e v held) g
        (.spawn (renewerOf rn e held g.kernel.nextId (g.kernel.nextId + 1)) k) u ∧
      u.kernel.nextId = g.kernel.nextId + 2 := by
  have hnew : ∀ p : Option Nat, Atomic (newToken p : Act Nat) := fun _ => atomic_onKernel
  obtain ⟨rest, hw⟩ := (work_eq : ∃ rest, work rn c e v held = _)
  rw [hw]
  exact ⟨_, _, (Reaches.bind_run (hnew _) (run_onKernel.2 ⟨rfl, rfl⟩)).trans
    (Reaches.bind_run (hnew _) (run_onKernel.2 ⟨rfl, rfl⟩)), rfl⟩

/-- Every timed run of `work` ends with its renewer finished: the run joins it after the job,
and settling the entry and releasing the lock bring back no finished task. -/
theorem work_renewer_finished (hr : (work rn c e v held).Timed h x h') :
    h'.kernel.isDone (h.kernel.nextId + 2) = true := by
  unfold work at hr
  rw [timed_bind] at hr
  obtain ⟨jc, h₁, hj, hr⟩ := hr
  rw [timed_bind] at hr
  obtain ⟨stop, h₂, hs, hr⟩ := hr
  rw [timed_bind] at hr
  obtain ⟨t, h₃, ht, hr⟩ := hr
  replace hj := hj.run
  replace hs := hs.run
  simp only [newToken, run_onKernel, hasKernel_kernel, hasKernel_withKernel] at hj hs
  obtain ⟨rfl, rfl⟩ := hj
  obtain ⟨rfl, rfl⟩ := hs
  simp only [start, timed_spawn, timed_done, hasKernel_kernel, hasKernel_withKernel] at ht
  obtain ⟨rfl, rfl⟩ := ht
  rw [timed_bind] at hr
  obtain ⟨o, h₄, ho, hr⟩ := hr
  obtain ⟨rfl, rfl⟩ := Queue.run_options.1 ho.run
  rw [timed_bind] at hr
  obtain ⟨ending, h₅, -, hr⟩ := hr
  rw [timed_bind] at hr
  obtain ⟨_, h₆, hc, hr⟩ := hr
  rw [timed_bind] at hr
  obtain ⟨j, h₇, hjn, hr⟩ := hr
  have hd := timed_join hjn
  -- after the join the run settles the entry and releases the lock
  have hrest := hr.run
  simp only [run_bind] at hrest
  obtain ⟨b, h₈, hf, hrest⟩ := hrest
  have hd₈ := keepsDone_finish hf _ hd
  cases held with
  | none =>
    obtain ⟨-, rfl⟩ := run_pure.1 hrest
    exact hd₈
  | some pl =>
    obtain ⟨p, l⟩ := pl
    simp only [run_bind, run_pure] at hrest
    obtain ⟨_, h₉, hrel, -, rfl⟩ := hrest
    exact keepsDone_release hrel _ hd₈

/-- The ways a timed run of `runOnce` goes: it returns nothing or an error, having started no
job; its lock timed out; or it hands the entry it took, with its lock or none needed, to
`work`. -/
theorem runOnce_timed (hr : (runOnce rn c).Timed h r h') :
    (r = .ok none ∨ ∃ err, r = .error err) ∨
    (∃ e v g₁ g₂,
      (Queue.pullTyped rn.job.item rn.options.dequeueWait).Timed h (.ok (some (e, v))) g₁ ∧
      (takeLock rn v).Timed g₁ .timedOut g₂ ∧
      r = .ok (some (.failed "unable to acquire lock" none))) ∨
    ∃ e v held g₁ g₂ x,
      (Queue.pullTyped rn.job.item rn.options.dequeueWait).Timed h (.ok (some (e, v))) g₁ ∧
      ((takeLock rn v).Timed g₁ .unlocked g₂ ∧ held = none ∨
        ∃ p l, (takeLock rn v).Timed g₁ (.held p l) g₂ ∧ held = some (p, l)) ∧
      (work rn c e v held).Timed g₂ x h' ∧ r = .ok (some x) := by
  rw [runOnce, timed_bind] at hr
  obtain ⟨cancelled, h₀, hc, hr⟩ := hr
  obtain ⟨-, rfl⟩ := run_isCancelled.1 hc.run
  cases cancelled with
  | true =>
    simp only [if_true, timed_pure] at hr
    exact .inl (.inl hr.1)
  | false =>
    simp only [Bool.false_eq_true, if_false, timed_bind] at hr
    obtain ⟨x, h₁, hx, hr⟩ := hr
    rcases x with err | _ | ⟨e, v⟩
    · exact .inl (.inr ⟨_, (timed_pure.1 hr).1⟩)
    · exact .inl (.inl (timed_pure.1 hr).1)
    · rw [timed_bind] at hr
      obtain ⟨o, h₂, ho, hr⟩ := hr
      cases o with
      | unlocked =>
        simp only [timed_bind, timed_pure] at hr
        obtain ⟨x, h₃, hw, rfl, rfl⟩ := hr
        exact .inr (.inr ⟨e, v, none, h₁, h₂, x, hx, .inl ⟨ho, rfl⟩, hw, rfl⟩)
      | held p l =>
        simp only [timed_bind, timed_pure] at hr
        obtain ⟨x, h₃, hw, rfl, rfl⟩ := hr
        exact .inr (.inr ⟨e, v, some (p, l), h₁, h₂, x, hx, .inr ⟨p, l, ho, rfl⟩, hw, rfl⟩)
      | timedOut =>
        simp only [timed_bind, timed_pure] at hr
        obtain ⟨_, _, -, rfl, -⟩ := hr
        exact .inr (.inl ⟨e, v, h₁, h₂, hx, ho, rfl⟩)
      | failed le =>
        simp only [timed_bind, timed_pure] at hr
        obtain ⟨_, _, -, rfl, -⟩ := hr
        exact .inl (.inr ⟨_, rfl⟩)

/-- What a run of `work` from `g` to `h'` did with its renewer: it started the renewal loop as
task `g.kernel.nextId + 2`, and that task had finished by the end. -/
def StoppedRenewer (rn : Runner) (c : Nat) (e : Queue.Leased) (v : Json)
    (held : Option (Lock.Provider × Lock.Grant)) (g h' : Host) : Prop :=
  (∃ k u, Reaches (work rn c e v held) g
      (.spawn (renewerOf rn e held g.kernel.nextId (g.kernel.nextId + 1)) k) u ∧
    u.kernel.nextId = g.kernel.nextId + 2) ∧
  h'.kernel.isDone (g.kernel.nextId + 2) = true

/-- A run that returns leaves no renewer behind. Every timed run of `runOnce` returns nothing
or an error before any job, or ends after a lock that timed out; neither starts a renewer.
Otherwise it ran `work`, which started the renewal loop as a task of its own and, having
cancelled the loop's stop token once the job returned, joined it: when the run returns, the
renewer has finished and renews nothing more. -/
theorem returned_run_stopped_renewer (hr : (runOnce rn c).Timed h r h') :
    (r = .ok none ∨ ∃ err, r = .error err) ∨
    (∃ e v g₁ g₂,
      (Queue.pullTyped rn.job.item rn.options.dequeueWait).Timed h (.ok (some (e, v))) g₁ ∧
      (takeLock rn v).Timed g₁ .timedOut g₂ ∧
      r = .ok (some (.failed "unable to acquire lock" none))) ∨
    ∃ e v held g₁ g₂ x,
      (Queue.pullTyped rn.job.item rn.options.dequeueWait).Timed h (.ok (some (e, v))) g₁ ∧
      ((takeLock rn v).Timed g₁ .unlocked g₂ ∧ held = none ∨
        ∃ p l, (takeLock rn v).Timed g₁ (.held p l) g₂ ∧ held = some (p, l)) ∧
      (work rn c e v held).Timed g₂ x h' ∧ r = .ok (some x) ∧
      StoppedRenewer rn c e v held g₂ h' := by
  rcases runOnce_timed hr with hn | ht | ⟨e, v, held, g₁, g₂, x, hx, hl, hw, rfl⟩
  · exact .inl hn
  · exact .inr (.inl ht)
  · exact .inr (.inr ⟨e, v, held, g₁, g₂, x, hx, hl, hw, rfl, work_reaches_renewer,
      work_renewer_finished hw⟩)

/-- A runner of scripts takes the one entry of its queue, whose script succeeds, runs it and
joins its renewer, which has finished when the run returns. -/
theorem returned_run_stopped_renewer_succeeded :
    ∃ h', (runOnce ⟨.script, RunnerOptions.default, none⟩ 1).Timed
        { queue := { store := (Queue.Store.enqueue "a"
          [123, 34, 100, 111, 34, 58, 34, 115, 117, 99, 99, 101, 101, 100, 34, 125]
          (Stamp.ofMillis 1700000000000) {}).1 } }
        (.ok (some (.success none))) h' ∧
      ∃ e v held g x, (work ⟨.script, RunnerOptions.default, none⟩ 1 e v held).Timed g x h' ∧
        StoppedRenewer ⟨.script, RunnerOptions.default, none⟩ 1 e v held g h' := by
  obtain ⟨h', hr⟩ : ∃ h', (runOnce ⟨.script, RunnerOptions.default, none⟩ 1).Timed
      { queue := { store := (Queue.Store.enqueue "a"
        [123, 34, 100, 111, 34, 58, 34, 115, 117, 99, 99, 101, 101, 100, 34, 125]
        (Stamp.ofMillis 1700000000000) {}).1 } }
      (.ok (some (.success none))) h' := by
    apply Exists.intro
    repeat (first | apply Timed.read | apply Timed.put | apply Timed.spawn)
    -- the join: the renewer, stopped, finishes there and then
    apply timed_join_now (j := .bool false)
    · decide
    repeat (first | apply Timed.read | apply Timed.put | apply Timed.spawn)
    exact timed_done.2 ⟨by decide, rfl⟩
  rcases returned_run_stopped_renewer hr with hn | ⟨-, -, -, -, -, -, ht⟩ |
    ⟨e, v, held, -, g, x, -, -, hw, -, hs⟩
  · simp at hn
  · simp at ht
  · exact ⟨h', hr, e, v, held, g, x, hw, hs⟩

end renewer

/-! ## An abandoned run -/

/-- A host whose queue leases entries for a second. -/
def briefLeaseHost : Host :=
  { queue :=
      { options := { Queue.Options.default with visibilityTimeout := Duration.ofMillis 1000 } } }

/-- A runner of scripts that takes an entry only when one is waiting. -/
def eagerRunner : Runner :=
  ⟨.script, { RunnerOptions.default with dequeueWait := Duration.zero }, none⟩

/-- The script `{"do":"sleep","ms":100000}`, which works for 100 s. -/
def longSleep : List UInt8 :=
  [123, 34, 100, 111, 34, 58, 34, 115, 108, 101, 101, 112, 34, 44, 34, 109, 115, 34, 58, 49, 48,
    48, 48, 48, 48, 125]

/-- Enqueue `longSleep`, run once under a limit of 100 ms, let `pause` milliseconds pass and
reap: whether the run was abandoned, and how many leases the reap reclaimed. -/
def abandonThenReap (pause : Nat) : Act Json := do
  let _ ← Queue.push longSleep
  let r ← withTimeout 100 (runOnce eagerRunner 0)
  sleep pause
  let n ← Queue.reap (← now)
  return .arr [.bool r.isNone, .nat n]

/-- The scheduler's run of `abandonThenReap` on `briefLeaseHost`. -/
def abandonedRunEnd (pause : Nat) : Machine Host × Option Json :=
  Machine.run (Machine.boot briefLeaseHost (abandonThenReap pause)) 100

/-- The entry as the abandoned run leased it, under its token, until `leaseEnd`. -/
def sleepEntry (leaseEnd : Nat) : Queue.Record :=
  ⟨Uuid.ofCounter 1, longSleep, .dequeued (Stamp.ofMillis leaseEnd), 1,
    Stamp.ofMillis 1700000000000, Stamp.ofMillis 1700000000000,
    some (Stamp.ofMillis 1700000000000), some (Uuid.ofCounter 2), none⟩

/-- The run is abandoned at 100 ms, when the lease it took ends at 1 s. Its renewer runs on:
at 5.1 s the entry is still leased under the run's token, now until 6 s, and a reap reclaims
nothing. -/
theorem abandoned_run_keeps_renewing :
    (abandonedRunEnd 0).2.map Json.render = some "[true,0]" ∧
    (abandonedRunEnd 0).1.state.queue.store.find? (Uuid.ofCounter 1) =
      some (sleepEntry 1700000001000) ∧
    (abandonedRunEnd 5000).2.map Json.render = some "[true,0]" ∧
    (abandonedRunEnd 5000).1.kernel.clock = 5100 ∧
    (abandonedRunEnd 5000).1.state.queue.store.find? (Uuid.ofCounter 1) =
      some (sleepEntry 1700000006000) := by
  decide +kernel

end Backplane.Jobs
