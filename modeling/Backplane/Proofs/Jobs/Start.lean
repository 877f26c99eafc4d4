import Backplane.Proofs.Jobs.Settlement
import Backplane.Proofs.Queue.Pull

/-!
# Where a job starts

A run of `Jobs.runOnce` takes an entry, then the lock its job names, and then calls the job.
The dequeue leaves the entry leased to the run's token until the visibility timeout after the
dequeue (`Queue.pullTyped_run_leased`). The lock step may wait, for a holder to let go or for
the next period of a throttle, while that timeout runs. From the end of the lock step to the
call of the job nothing waits, and nothing looks at the lease again.

`job_start_lease` says so of every run under every schedule of the other tasks: the job
starts with the queue and the instant the lock step left, and with no lock to take these are
the ones the dequeue left, where the entry is owned. Behind a lock the entry is owned at the
start only if its lease outlived the wait for the lock. `lock_wait_outlives_lease` is a run of
the scheduler where a throttle holds the second of two jobs for five seconds, past a lease of
one second: the job starts on an entry whose lease ran out four seconds before.
-/

open Backplane.Fiber Backplane.Fiber.Prog

namespace Backplane.Jobs

open Host

variable {rn : Runner} {c : Nat} {h h' : Host} {v : Json}

/-! ## The steps between the dequeue and the job -/

theorem takeLock_run_unlocked (hr : (takeLock rn v).Run h .unlocked h') : h' = h := by
  unfold takeLock at hr
  split at hr
  · simp only [run_bind, run_get] at hr
    obtain ⟨_, _, ⟨rfl, rfl⟩, hr⟩ := hr
    split at hr
    · -- a provider answers with a lock held, refused or failed, never with none needed
      simp only [run_bind] at hr
      obtain ⟨x, h₁, -, hr⟩ := hr
      split at hr <;> simp at hr
    · exact (run_pure.1 hr).2
  · exact (run_pure.1 hr).2

theorem takeLock_run_no_provider {o : LockOutcome} (hl : rn.locks = none)
    (hr : (takeLock rn v).Run h o h') : o = .unlocked ∧ h' = h := by
  unfold takeLock at hr
  rw [hl] at hr
  have hu : (pure .unlocked : Act LockOutcome).Run h o h' := by
    cases hk : rn.job.lockKey v <;> rw [hk] at hr <;> exact hr
  obtain ⟨rfl, rfl⟩ := run_pure.1 hu
  exact ⟨rfl, rfl⟩

theorem newToken_run_frame {p : Option Nat} {t : Nat} (hr : (newToken p).Run h t h') :
    h'.queue = h.queue ∧ h'.instant = h.instant := by
  simp only [newToken, run_onKernel] at hr
  obtain ⟨-, rfl⟩ := hr
  exact ⟨rfl, rfl⟩

theorem start_run_frame {b : Act Json} {t : TaskId} (hr : (start b).Run h t h') :
    h'.queue = h.queue ∧ h'.instant = h.instant := by
  simp only [start, run_spawn, run_done] at hr
  obtain ⟨-, rfl⟩ := hr
  exact ⟨rfl, rfl⟩

/-! ## The lease at the start of a job -/

/-- Where a job starts. In every run of `runOnce` the job is not called, or it is called on
the entry `e` that the dequeue returned in `h₁`, leased there to `e`'s token from the instant
of the dequeue until the visibility timeout after it. The lock step goes from `h₁` to `h₂`,
changing nothing when there is no lock to take, and the job starts in a host `u` with the
queue and the instant of `h₂`. So with no lock to take the job starts owning its entry, for a
positive visibility timeout short of the end of the calendar; behind a lock it owns the entry
exactly when the lease was still owned where the lock step ended. -/
theorem job_start_lease {r : Except JobError (Option JobResult)}
    (hr : (runOnce rn c).Run h r h') :
    (r = .ok none ∨ (∃ err, r = .error (.queue err)) ∨
      ∃ e v o h₁ h₂,
        (Queue.pullTyped rn.job.item rn.options.dequeueWait).Run h (.ok (some (e, v))) h₁ ∧
        (takeLock rn v).Run h₁ o h₂ ∧ (o = .timedOut ∨ ∃ le, o = .failed le)) ∨
    ∃ e v o held h₁ h₂ u jc ending h₄,
      (Queue.pullTyped rn.job.item rn.options.dequeueWait).Run h (.ok (some (e, v))) h₁ ∧
      e.dequeuedAt = h₁.instant ∧
      e.leaseUntil = h₁.instant.addOrMax h₁.queue.options.visibilityTimeout ∧
      (∃ rec, h₁.queue.store.find? e.id = some rec ∧ rec.state = .dequeued e.leaseUntil ∧
        rec.leaseToken = some e.token) ∧
      (takeLock rn v).Run h₁ o h₂ ∧
      (o = .unlocked ∧ held = none ∧ h₂ = h₁ ∨ ∃ p l, o = .held p l ∧ held = some (p, l)) ∧
      u.queue = h₂.queue ∧ u.instant = h₂.instant ∧
      (rn.job.process ⟨e, v, u.queue.options.name, held.map (·.2.resource), jc⟩).Run
        u ending h₄ ∧
      (held = none → 0 < h₁.queue.options.visibilityTimeout.nanos →
        h₁.instant < Stamp.maxUtc →
        ∃ rec, u.queue.store.find? e.id = some rec ∧ rec.isOwnedBy e.token u.instant = true) := by
  rcases runOnce_run hr with ⟨rfl, -⟩ | ⟨x, -, ⟨-, rfl⟩ | ⟨err, -, rfl⟩⟩ |
    ⟨e, v, o, h₁, h₂, hx, ho, hrest⟩
  · exact .inl (.inl rfl)
  · exact .inl (.inl rfl)
  · exact .inl (.inr (.inl ⟨err, rfl⟩))
  rcases hrest with ⟨rfl, -, -⟩ | ⟨le, rfl, -, -⟩ | ⟨held, g, hheld, -, hw⟩
  · exact .inl (.inr (.inr ⟨e, v, _, h₁, h₂, hx, ho, .inl rfl⟩))
  · exact .inl (.inr (.inr ⟨e, v, _, h₁, h₂, hx, ho, .inr ⟨le, rfl⟩⟩))
  -- the job ran: from the lock step to its call there are two tokens and the renewer
  obtain ⟨jc, _, _, ending, _, _, _, _, h₂a, h₂b, u, h₄, _, _, _, hj, hs, hst, hp, -⟩ :=
    work_run hw
  obtain ⟨hq₁, hi₁⟩ := newToken_run_frame hj
  obtain ⟨hq₂, hi₂⟩ := newToken_run_frame hs
  obtain ⟨hq₃, hi₃⟩ := start_run_frame hst
  have hq : u.queue = h₂.queue := hq₃.trans (hq₂.trans hq₁)
  have hi : u.instant = h₂.instant := hi₃.trans (hi₂.trans hi₁)
  obtain ⟨hd, hl, rec, hrec, hstate, htok⟩ := Queue.pullTyped_run_leased hx
  have hheld' : o = .unlocked ∧ held = none ∧ h₂ = h₁ ∨
      ∃ p l, o = .held p l ∧ held = some (p, l) := by
    rcases hheld with ⟨rfl, rfl⟩ | hpl
    · exact .inl ⟨rfl, rfl, takeLock_run_unlocked ho⟩
    · exact .inr hpl
  refine .inr ⟨e, v, o, held, h₁, h₂, u, jc, ending, h₄, hx, hd, hl, ⟨rec, hrec, hstate, htok⟩,
    ho, hheld', hq, hi, hp, fun hnone hvis hmax => ?_⟩
  have h₂₁ : h₂ = h₁ := by
    rcases hheld' with ⟨-, -, h₂₁⟩ | ⟨p, l, -, hsome⟩
    · exact h₂₁
    · rw [hnone] at hsome
      cases hsome
  subst h₂₁
  refine ⟨rec, by rw [hq]; exact hrec, (Queue.Record.isOwnedBy_of_leased hstate htok).2 ?_⟩
  rw [hi, hl]
  exact Stamp.lt_addOrMax hvis hmax

/-- The script `{"do":"succeed"}`. -/
def plainSucceed : List UInt8 :=
  [123, 34, 100, 111, 34, 58, 34, 115, 117, 99, 99, 101, 101, 100, 34, 125]

/-- A host whose queue holds `plainSucceed`, enqueued at the epoch. -/
def readyHost : Host :=
  { queue := { store := (({} : Queue.Store).enqueue (Uuid.ofCounter 1) plainSucceed
      (Stamp.ofMillis 0)).1 } }

/-- A runner of scripts with no lock provider, that takes an entry only when one is waiting. -/
def unlockedRunner : Runner :=
  ⟨.script, { RunnerOptions.default with dequeueWait := Duration.zero }, none⟩

/-- A run with no lock provider succeeds on the waiting script, and its job starts where the
dequeue left the entry: leased to its token, at the instant it was dequeued. -/
theorem job_start_lease_ready :
    ∃ h', (runOnce unlockedRunner 0).Run readyHost (.ok (some (.success none))) h' ∧
      ∃ (e : Queue.Leased) (v : Json) (u : Host) (jc : Nat) (ending : Ending) (h₄ : Host),
        (unlockedRunner.job.process ⟨e, v, u.queue.options.name, none, jc⟩).Run u ending h₄ ∧
        e.dequeuedAt = u.instant ∧
        ∃ rec, u.queue.store.find? e.id = some rec ∧ rec.state = .dequeued e.leaseUntil ∧
          rec.leaseToken = some e.token := by
  obtain ⟨h', hr⟩ : ∃ h',
      (runOnce unlockedRunner 0).Run readyHost (.ok (some (.success none))) h' := by
    apply Exists.intro
    -- follow the program node by node, every wait over at once
    repeat (first | apply Run.read | apply Run.put | apply Run.spawn | apply Run.wait_now)
    exact Run.done
  refine ⟨h', hr, ?_⟩
  rcases job_start_lease hr with ⟨hn | ⟨err, he⟩ | ⟨e, v, o, h₁, h₂, -, ho, hrefused⟩⟩ |
    ⟨e, v, o, held, h₁, h₂, u, jc, ending, h₄, -, hd, -, ⟨rec, hrec, hst, htk⟩, ho, hheld, hq, hi,
      hp, -⟩
  · cases hn
  · cases he
  · obtain ⟨rfl, -⟩ := takeLock_run_no_provider rfl ho
    rcases hrefused with hto | ⟨le, hf⟩
    · cases hto
    · cases hf
  · obtain ⟨rfl, rfl⟩ := takeLock_run_no_provider rfl ho
    obtain rfl : held = none := by
      rcases hheld with ⟨-, hn, -⟩ | ⟨p, l, hh, -⟩
      · exact hn
      · cases hh
    exact ⟨e, v, u, jc, ending, h₄, hp, hd.trans hi.symm, rec, hq ▸ hrec, hst, htk⟩

/-! ## A lock wait that outlives the lease -/

/-- A host on a clock from 1700000000000 ms whose queue leases entries for a second, with a
throttle as its lock provider that grants one lock per five seconds. -/
def throttleHost : Host :=
  { startMs := 1700000000000, caches := [Cache.Store.empty none],
    queue := { options :=
      { Queue.Options.default with visibilityTimeout := Duration.ofMillis 1000 } },
    providers := [.ok (.throttle 0 ⟨1, Duration.ofMillis 5000⟩)] }

/-- A runner of scripts with the throttle, that takes an entry only when one is waiting. -/
def throttledRunner : Runner :=
  ⟨.script, { RunnerOptions.default with dequeueWait := Duration.zero }, some 0⟩

/-- The script `{"do":"succeed","lock":"R"}`, which succeeds holding the lock on `R`. -/
def lockedSucceed : List UInt8 :=
  [123, 34, 100, 111, 34, 58, 34, 115, 117, 99, 99, 101, 101, 100, 34, 44, 34, 108, 111, 99, 107,
    34, 58, 34, 82, 34, 125]

/-- The text of the result of a run, `null` when it has none. -/
def runResultText : Except JobError (Option JobResult) → Json
  | .ok (some g) => .str g.text
  | _ => .null

/-- Enqueue `lockedSucceed` twice and run once twice: the texts of the two results. -/
def twoLockedRuns : Act Json := do
  let _ ← Queue.push lockedSucceed
  let _ ← Queue.push lockedSucceed
  let r₁ ← runOnce throttledRunner 0
  let r₂ ← runOnce throttledRunner 0
  return .arr [runResultText r₁, runResultText r₂]

/-- The scheduler's run of `twoLockedRuns` on `throttleHost`. -/
def twoLockedEnd : Machine Host × Option Json :=
  Machine.run (Machine.boot throttleHost twoLockedRuns) 10

/-- The first run takes the throttle's grant for the period. The second dequeues the other
entry at once, leased until one second later, and waits for the next period: its job starts
five seconds and a millisecond after, on an entry whose lease under the run's token ran out
four seconds before. The completion then finds the entry no longer owned. -/
theorem lock_wait_outlives_lease :
    twoLockedEnd.2.map Json.render =
      some "[\"success\",\"cancelled: ownership lost before completion\"]" ∧
    twoLockedEnd.1.kernel.clock = 5001 ∧
    twoLockedEnd.1.state.runs.map (fun r => ((r.2.field? "entry_id").map Json.render,
      (r.2.field? "started_at").map Json.render)) =
      [(some "\"00000000-0000-4000-8000-000000000001\"", some "1700000000000"),
       (some "\"00000000-0000-4000-8000-000000000002\"", some "1700000005001")] ∧
    (twoLockedEnd.1.state.queue.store.find? (Uuid.ofCounter 2)).map
      (fun r => (r.state, r.attempts, r.dequeuedAt, r.leaseToken)) =
      some (.dequeued (Stamp.ofMillis 1700000001000), 1, some (Stamp.ofMillis 1700000000000),
        some (Uuid.ofCounter 5)) ∧
    (twoLockedEnd.1.state.queue.store.find? (Uuid.ofCounter 2)).map
      (fun r => r.isOwnedBy (Uuid.ofCounter 5) (Stamp.ofMillis 1700000005001)) = some false := by
  decide +kernel

end Backplane.Jobs
