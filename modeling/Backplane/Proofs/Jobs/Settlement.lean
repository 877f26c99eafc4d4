import Mathlib.Logic.Relation
import Backplane.Host.Runner
import Backplane.Proofs.Fiber.Run
import Backplane.Proofs.Queue.Store

/-!
# A runner settles each entry it takes once

The runs of `Jobs.runOnce` under every schedule of the other tasks (`Prog.Run`): the renewer,
reapers, forced lease expiry, the removal or expiry of the lock and an outer cancellation may
all act while the run waits. A run that took an entry settles it exactly once, by completing
it for a successful result and handing it back with the result's reason otherwise; the result
it returns says how the settling went.

The decomposition lemmas `runOnce_run` and `work_run` say which steps a run is made of, in
order; `renewal_run` says what the renewer reports, from one turn of its loop
(`renewal_succ_run`); `finish_run` and `Queue.complete_run_true` say what a settling does to
the queue. The main statement is `runOnce_settles_once`.
-/

open Backplane.Fiber Backplane.Fiber.Prog

namespace Backplane

namespace Host

variable {h h' : Host}

theorem run_emitQueueEvents {evs : List Queue.Event} {u : Unit}
    (hr : (emitQueueEvents evs).Run h u h') : h'.queue.store = h.queue.store := by
  rw [emitQueueEvents, run_forM_modify] at hr
  subst hr
  induction evs generalizing h with
  | nil => rfl
  | cons ev evs ih => exact ih

end Host

namespace Queue

open Host

variable {h h' : Host}

@[simp] theorem run_onStore {α : Type} {f : Store → Store × α} {a : α} :
    (onStore f).Run h a h' ↔
      a = (f h.queue.store).2 ∧ h' = { h with queue := { h.queue with store := (f h.queue.store).1 } } := by
  simp [onStore]

@[simp] theorem run_options {o : Options} : options.Run h o h' ↔ o = h.queue.options ∧ h' = h := by
  simp [options, and_comm]

theorem complete_run_true {id token : String} (hr : (complete id token).Run h true h') :
    ∃ r, h.queue.store.find? id = some r ∧ r.isOwnedBy token h.instant = true ∧
      h'.queue.store.find? id = none := by
  simp only [complete, run_bind, run_now, run_onStore] at hr
  obtain ⟨t, h₁, ⟨rfl, rfl⟩, ev, h₂, ⟨hev, rfl⟩, hr⟩ := hr
  rcases Store.complete_cases h₁.queue.store id token h₁.instant with hc | ⟨r, hf, ho, hc⟩
  · rw [hc] at hev
    subst hev
    simp at hr
  · refine ⟨r, hf, ho, ?_⟩
    rw [hc] at hev
    subst hev
    simp only [run_bind, run_pure] at hr
    obtain ⟨_, h₃, he, -, rfl⟩ := hr
    rw [run_emitQueueEvents he, hc]
    simp [Store.find?_filter_id]

end Queue

namespace Jobs

open Host

variable {h h' : Host}

/-! ## Settling an entry -/

/-- Entry `e` settled by the result `g`: completed when `g` is a success, handed back with the
reason `g` gives otherwise; `b` is what the settling returned. -/
def Settles (e : Queue.Leased) (g : JobResult) (h : Host) (b : Bool) (h' : Host) : Prop :=
  g.isSuccess = true ∧ (Queue.complete e.id e.token).Run h b h' ∨
  g.isSuccess = false ∧ b = true ∧
    ∃ b', (Queue.giveBack e.id e.token (some (g.abandonReason.getD ""))).Run h b' h'

theorem finish_run {e : Queue.Leased} {g : JobResult} {b : Bool} :
    (finish e g).Run h b h' ↔ Settles e g h b h' := by
  unfold finish Settles
  cases g.isSuccess <;> simp [and_comm]

theorem finish_success_run {e : Queue.Leased} {m : Option String}
    (hf : (finish e (.success m)).Run h true h') :
    ∃ rec, h.queue.store.find? e.id = some rec ∧ rec.isOwnedBy e.token h.instant = true ∧
      h'.queue.store.find? e.id = none := by
  rcases finish_run.1 hf with ⟨-, hc⟩ | ⟨hs, -⟩
  · exact Queue.complete_run_true hc
  · simp [JobResult.isSuccess] at hs

/-! ## The renewer -/

/-- The wait between two renewals: true when the run was stopped first, false when the
interval ran out. -/
def renewalPause (interval stop : Nat) : Act Bool := do
  let tm ← timer interval
  let i ← select [.cancelled stop, .timer tm]
  dropTimer tm
  return i == 0

section renewal

variable {e : Queue.Leased} {ql ll : Duration} {iv jc stop : Nat}

/-- One turn of the renewal loop that kept both leases: the interval ran out, and the renewal
gave the lock to hold next. -/
def RenewalTurn (e : Queue.Leased) (ql ll : Duration) (iv stop : Nat)
    (x y : Option (Lock.Provider × Lock.Grant) × Host) : Prop :=
  ∃ h₁, (renewalPause iv stop).Run x.2 false h₁ ∧ (renewOnce e ql x.1 ll).Run h₁ (some y.1) y.2

/-- A run of the renewal loop from `h` to `h'` that reported `lost`: turns that kept both
leases, then the end: stopped, or out of turns, with nothing lost; or a renewal that failed,
after which the job was cancelled. -/
def Renewed (e : Queue.Leased) (ql ll : Duration) (iv jc stop : Nat)
    (lock : Option (Lock.Provider × Lock.Grant)) (h : Host) (lost : Bool) (h' : Host) : Prop :=
  ∃ lock₁ h₁, Relation.ReflTransGen (RenewalTurn e ql ll iv stop) (lock, h) (lock₁, h₁) ∧
    (lost = false ∧ (h' = h₁ ∨ (renewalPause iv stop).Run h₁ true h') ∨
     lost = true ∧ ∃ h₂ h₃, (renewalPause iv stop).Run h₁ false h₂ ∧
       (renewOnce e ql lock₁ ll).Run h₂ none h₃ ∧ (cancel jc).Run h₃ () h')

/-- One turn of the renewal loop: the wait, then, unless stopped, a renewal, after which the
loop goes on with the renewed lock or ends reporting the loss. -/
theorem renewal_succ_run {lock : Option (Lock.Provider × Lock.Grant)} {n : Nat} {j : Json}
    (hr : (renewal e ql ll iv jc stop lock (n + 1)).Run h j h') :
    ∃ stopped h₁, (renewalPause iv stop).Run h stopped h₁ ∧
      (stopped = true ∧ j = .bool false ∧ h' = h₁ ∨
       stopped = false ∧ ∃ r h₂, (renewOnce e ql lock ll).Run h₁ r h₂ ∧
         ((∃ l, r = some l ∧ (renewal e ql ll iv jc stop l n).Run h₂ j h') ∨
          r = none ∧ j = .bool true ∧ (cancel jc).Run h₂ () h')) := by
  simp only [renewal, run_bind] at hr
  obtain ⟨tm, h₁, ht, i, h₂, hw, u, h₃, hd, hr⟩ := hr
  have hp : (renewalPause iv stop).Run h (i == 0) h₃ := by
    simp only [renewalPause, run_bind]
    exact ⟨tm, h₁, ht, i, h₂, hw, u, h₃, hd, by simp⟩
  refine ⟨i == 0, h₃, hp, ?_⟩
  cases hi : i == 0
  · simp only [hi, Bool.false_eq_true, if_false, run_bind] at hr
    obtain ⟨r, h₄, hrn, hr⟩ := hr
    refine .inr ⟨rfl, r, h₄, hrn, ?_⟩
    cases r with
    | some l => exact .inl ⟨l, rfl, hr⟩
    | none =>
      simp only [run_bind, run_pure] at hr
      obtain ⟨_, h₅, hc, rfl, rfl⟩ := hr
      exact .inr ⟨rfl, rfl, hc⟩
  · simp only [hi, if_true, run_pure] at hr
    exact .inl ⟨rfl, hr⟩

/-- Every run of the renewal loop reports a loss exactly when its last renewal failed, all
renewals before it having kept both leases. -/
theorem renewal_run {lock : Option (Lock.Provider × Lock.Grant)} {n : Nat} {j : Json}
    (hr : (renewal e ql ll iv jc stop lock n).Run h j h') :
    ∃ lost, j = .bool lost ∧ Renewed e ql ll iv jc stop lock h lost h' := by
  -- induction on the turns left, the renewed lock and the state going along
  induction n generalizing lock h with
  | zero =>
    simp only [renewal, run_pure] at hr
    obtain ⟨rfl, rfl⟩ := hr
    exact ⟨false, rfl, lock, _, .refl, .inl ⟨rfl, .inl rfl⟩⟩
  | succ n ih =>
    obtain ⟨stopped, h₁, hp, ⟨rfl, rfl, rfl⟩ | ⟨rfl, r, h₂, hrn, hr⟩⟩ := renewal_succ_run hr
    · exact ⟨false, rfl, lock, h, .refl, .inl ⟨rfl, .inr hp⟩⟩
    · rcases hr with ⟨l, rfl, hr⟩ | ⟨rfl, rfl, hc⟩
      · obtain ⟨lost, rfl, lock₁, h₃, hturns, hend⟩ := ih hr
        exact ⟨lost, rfl, lock₁, h₃, .head ⟨h₁, hp, hrn⟩ hturns, hend⟩
      · exact ⟨true, rfl, lock, h, .refl, .inr ⟨rfl, h₁, h₂, hp, hrn, hc⟩⟩

end renewal

theorem lost_eq_of_bool {lost l : Bool} (hl : lost = true ↔ Json.bool l = .bool true) :
    lost = l := by
  cases lost <;> cases l <;> simp_all

/-! ## What a run returns -/

theorem settled_isSuccess {lost : Bool} {x : JobResult} {t : String}
    (hs : (if lost then JobResult.cancelled t else x).isSuccess = true) :
    lost = false ∧ x.isSuccess = true := by
  cases lost <;> simp_all [JobResult.isSuccess]

theorem reported_success {b : Bool} {g : JobResult} {m : Option String}
    (hr : (if b then g else .cancelled "ownership lost before completion") = .success m) :
    b = true ∧ g = .success m := by
  cases b <;> simp_all

theorem reported_lost {b lost : Bool} {x : JobResult} (hl : lost = true ∨ b = false) :
    ∃ m rest, (if b then
        (if lost then JobResult.cancelled ("ownership lost while processing (" ++ x.text ++ ")")
         else x)
      else .cancelled "ownership lost before completion") = .cancelled m ∧
      m = "ownership lost" ++ rest := by
  rcases hl with rfl | rfl
  · cases b
    · exact ⟨_, " before completion", rfl, by simp⟩
    · exact ⟨_, " while processing (" ++ x.text ++ ")", rfl, by simp [← String.append_assoc]⟩
  · exact ⟨_, " before completion", rfl, by simp⟩

/-! ## The steps of a run -/

section runs

variable {rn : Runner} {c : Nat} {e : Queue.Leased} {v : Json}

/-- A run of `work`: new tokens and the renewer, the job, the renewer stopped and joined, then
one settling of the entry, and last the release of the lock. -/
theorem work_run {held : Option (Lock.Provider × Lock.Grant)} {g : JobResult}
    (hr : (work rn c e v held).Run h g h') :
    ∃ jobCancel stop renewer ending j lost g₀ b h₁ h₂ h₃ h₄ h₅ h₆ h₇,
      (newToken (some c)).Run h jobCancel h₁ ∧ (newToken none).Run h₁ stop h₂ ∧
      (start (renewal e (e.leaseUntil.since e.dequeuedAt) rn.options.lock.lease
        (ticks (rn.options.renewalFor (e.leaseUntil.since e.dequeuedAt) held.isSome))
        jobCancel stop held forever)).Run h₂ renewer h₃ ∧
      (rn.job.process ⟨e, v, h₃.queue.options.name, held.map (·.2.resource), jobCancel⟩).Run
        h₃ ending h₄ ∧
      (cancel stop).Run h₄ () h₅ ∧ (join renewer).Run h₅ j h₆ ∧ (lost = true ↔ j = .bool true) ∧
      g₀ = (if lost then .cancelled ("ownership lost while processing (" ++ ending.toResult.text ++ ")")
        else ending.toResult) ∧
      (finish e g₀).Run h₆ b h₇ ∧
      (held = none ∧ h' = h₇ ∨ ∃ p l x, held = some (p, l) ∧ (p.release l).run.Run h₇ x h') ∧
      g = if b then g₀ else .cancelled "ownership lost before completion" := by
  simp only [work, run_bind, Queue.run_options] at hr
  obtain ⟨jobCancel, h₁, hj, stop, h₂, hs, renewer, h₃, hst, _, _, ⟨rfl, rfl⟩, ending, h₄, hp,
    _, h₅, hc, j, h₆, hjn, b, h₇, hf, hr⟩ := hr
  refine ⟨jobCancel, stop, renewer, ending, j, _, _, b, h₁, h₂, _, h₄, h₅, h₆, h₇, hj, hs, hst, hp,
    hc, hjn, ?_, rfl, hf, ?_⟩
  · cases j <;> simp
  · cases held with
    | none =>
      simp only [run_pure] at hr
      exact ⟨.inl ⟨rfl, hr.2⟩, hr.1⟩
    | some pl =>
      obtain ⟨p, l⟩ := pl
      simp only [run_bind, run_pure] at hr
      obtain ⟨x, h₈, hrel, rfl, rfl⟩ := hr
      exact ⟨.inr ⟨p, l, x, rfl, hrel⟩, rfl⟩

/-- The ways a run of `runOnce` goes: cancelled before it began, no entry taken, or an entry
taken and then its lock: timed out, failed, or held (or none needed) while the job works. -/
theorem runOnce_run {r : Except JobError (Option JobResult)} (hr : (runOnce rn c).Run h r h') :
    r = .ok none ∧ h' = h ∨
    (∃ x, (Queue.pullTyped rn.job.item rn.options.dequeueWait).Run h x h' ∧
      (x = .ok none ∧ r = .ok none ∨ ∃ err, x = .error err ∧ r = .error (.queue err))) ∨
    ∃ e v o h₁ h₂, (Queue.pullTyped rn.job.item rn.options.dequeueWait).Run h (.ok (some (e, v))) h₁ ∧
      (takeLock rn v).Run h₁ o h₂ ∧
      (o = .timedOut ∧ r = .ok (some (.failed "unable to acquire lock" none)) ∧
          (∃ b, (finish e (.failed "unable to acquire lock" none)).Run h₂ b h') ∨
       (∃ le, o = .failed le ∧ r = .error (.lock le) ∧
          ∃ b, (finish e (.failed (JobError.lock le).message none)).Run h₂ b h') ∨
       ∃ held g, (o = .unlocked ∧ held = none ∨ ∃ p l, o = .held p l ∧ held = some (p, l)) ∧
         r = .ok (some g) ∧ (work rn c e v held).Run h₂ g h') := by
  simp only [runOnce, run_bind, run_isCancelled] at hr
  obtain ⟨cancelled, h₀, ⟨-, rfl⟩, hr⟩ := hr
  cases cancelled with
  | true =>
    simp only [if_true, run_pure] at hr
    exact .inl hr
  | false =>
    simp only [Bool.false_eq_true, if_false, run_bind] at hr
    obtain ⟨x, h₁, hx, hr⟩ := hr
    rcases x with err | _ | ⟨e, v⟩
    · simp only [run_pure] at hr
      obtain ⟨rfl, rfl⟩ := hr
      exact .inr (.inl ⟨_, hx, .inr ⟨err, rfl, rfl⟩⟩)
    · simp only [run_pure] at hr
      obtain ⟨rfl, rfl⟩ := hr
      exact .inr (.inl ⟨_, hx, .inl ⟨rfl, rfl⟩⟩)
    · simp only [run_bind] at hr
      obtain ⟨o, h₂, ho, hr⟩ := hr
      refine .inr (.inr ⟨e, v, o, h₁, h₂, hx, ho, ?_⟩)
      cases o with
      | unlocked =>
        simp only [run_bind, run_pure] at hr
        obtain ⟨g, h₃, hw, rfl, rfl⟩ := hr
        exact .inr (.inr ⟨none, g, .inl ⟨rfl, rfl⟩, rfl, hw⟩)
      | held p l =>
        simp only [run_bind, run_pure] at hr
        obtain ⟨g, h₃, hw, rfl, rfl⟩ := hr
        exact .inr (.inr ⟨some (p, l), g, .inr ⟨p, l, rfl, rfl⟩, rfl, hw⟩)
      | timedOut =>
        simp only [run_bind, run_pure] at hr
        obtain ⟨b, h₃, hf, rfl, rfl⟩ := hr
        exact .inl ⟨rfl, rfl, b, hf⟩
      | failed le =>
        simp only [run_bind, run_pure] at hr
        obtain ⟨b, h₃, hf, rfl, rfl⟩ := hr
        exact .inr (.inl ⟨le, rfl, rfl, b, hf⟩)

end runs

/-! ## Each entry settled once -/

/-- What a run of `runOnce` from `h` to `h'` returning `r` did. It took no entry and returns no
result; or it took an entry `e` and settled it once, by the result `g`, the settling returning
`b`, where a returned success means `e` was completed under the run's own lease. The settling
follows a lock that timed out or failed, the job never having run; or it follows the job, after
the renewer was stopped and joined, and comes before the lock is released. -/
def SettledOnce (rn : Runner) (c : Nat) (h : Host) (r : Except JobError (Option JobResult))
    (h' : Host) : Prop :=
  ((r = .ok none ∨ ∃ err, r = .error (.queue err)) ∧
    (h' = h ∨ ∃ x, (Queue.pullTyped rn.job.item rn.options.dequeueWait).Run h x h')) ∨
  ∃ e v g b h₁ h₂ h₃,
    (Queue.pullTyped rn.job.item rn.options.dequeueWait).Run h (.ok (some (e, v))) h₁ ∧
    Settles e g h₂ b h₃ ∧
    (∀ m, r = .ok (some (.success m)) → g = .success m ∧ b = true ∧
      ∃ rec, h₂.queue.store.find? e.id = some rec ∧ rec.isOwnedBy e.token h₂.instant = true ∧
        h₃.queue.store.find? e.id = none) ∧
    ((takeLock rn v).Run h₁ .timedOut h₂ ∧ g = .failed "unable to acquire lock" none ∧
        r = .ok (some g) ∧ h' = h₃ ∨
     (∃ le, (takeLock rn v).Run h₁ (.failed le) h₂ ∧ g = .failed (JobError.lock le).message none ∧
        r = .error (.lock le) ∧ h' = h₃) ∨
     -- the job ran to `ending`; the renewer's report `j` is read after it was stopped
     ∃ held jobCancel stop renewer ending j lost h₄ h₅ h₆ h₇ h₈ h₉,
       ((takeLock rn v).Run h₁ .unlocked h₄ ∧ held = none ∨
         ∃ p l, (takeLock rn v).Run h₁ (.held p l) h₄ ∧ held = some (p, l)) ∧
       (newToken (some c)).Run h₄ jobCancel h₅ ∧ (newToken none).Run h₅ stop h₆ ∧
       (start (renewal e (e.leaseUntil.since e.dequeuedAt) rn.options.lock.lease
         (ticks (rn.options.renewalFor (e.leaseUntil.since e.dequeuedAt) held.isSome))
         jobCancel stop held forever)).Run h₆ renewer h₇ ∧
       (rn.job.process ⟨e, v, h₇.queue.options.name, held.map (·.2.resource), jobCancel⟩).Run
         h₇ ending h₈ ∧
       (cancel stop).Run h₈ () h₉ ∧ (join renewer).Run h₉ j h₂ ∧
       -- whichever run of the renewer gave `j`, `lost` tells whether its last renewal failed
       (∀ k k', (renewal e (e.leaseUntil.since e.dequeuedAt) rn.options.lock.lease
           (ticks (rn.options.renewalFor (e.leaseUntil.since e.dequeuedAt) held.isSome))
           jobCancel stop held forever).Run k j k' →
         Renewed e (e.leaseUntil.since e.dequeuedAt) rn.options.lock.lease
           (ticks (rn.options.renewalFor (e.leaseUntil.since e.dequeuedAt) held.isSome))
           jobCancel stop held k lost k') ∧
       g = (if lost then .cancelled ("ownership lost while processing (" ++ ending.toResult.text ++ ")")
         else ending.toResult) ∧
       (held = none ∧ h' = h₃ ∨ ∃ p l x, held = some (p, l) ∧ (p.release l).run.Run h₃ x h') ∧
       r = .ok (some (if b then g else .cancelled "ownership lost before completion")) ∧
       (g.isSuccess = true → lost = false ∧ ending.toResult.isSuccess = true) ∧
       (∀ m, ending = .panic m → lost = false → g = .failed ("job panicked: " ++ m) none) ∧
       (lost = true ∨ b = false → ∃ m rest, r = .ok (some (.cancelled m)) ∧
         m = "ownership lost" ++ rest))

/-- Under every schedule of the other tasks, a run of `runOnce` takes no entry, or settles the
entry it took exactly once, completing it only for a job that succeeded while every renewal
kept both leases, and returns what the settling did. -/
theorem runOnce_settles_once {rn : Runner} {c : Nat} {r : Except JobError (Option JobResult)}
    (hr : (runOnce rn c).Run h r h') : SettledOnce rn c h r h' := by
  rcases runOnce_run hr with ⟨rfl, rfl⟩ | ⟨x, hx, ⟨-, rfl⟩ | ⟨err, -, rfl⟩⟩ |
    ⟨e, v, o, h₁, h₂, hx, ho, hpath⟩
  · exact .inl ⟨.inl rfl, .inl rfl⟩
  · exact .inl ⟨.inl rfl, .inr ⟨x, hx⟩⟩
  · exact .inl ⟨.inr ⟨err, rfl⟩, .inr ⟨x, hx⟩⟩
  rcases hpath with ⟨rfl, rfl, b, hf⟩ | ⟨le, rfl, rfl, b, hf⟩ | ⟨held, g, hheld, rfl, hw⟩
  · refine .inr ⟨e, v, _, b, h₁, h₂, h', hx, finish_run.1 hf, ?_, .inl ⟨ho, rfl, rfl, rfl⟩⟩
    intro m hm
    simp at hm
  · refine .inr ⟨e, v, _, b, h₁, h₂, h', hx, finish_run.1 hf, ?_, .inr (.inl ⟨le, ho, rfl, rfl, rfl⟩)⟩
    intro m hm
    simp at hm
  obtain ⟨jobCancel, stop, renewer, ending, j, lost, g₀, b, h₃, h₄, h₅, h₆, h₇, h₈, h₉, hj, hs,
    hst, hp, hc, hjn, hlost, rfl, hf, hrel, rfl⟩ := work_run hw
  have hheld' : (takeLock rn v).Run h₁ .unlocked h₂ ∧ held = none ∨
      ∃ p l, (takeLock rn v).Run h₁ (.held p l) h₂ ∧ held = some (p, l) := by
    rcases hheld with ⟨rfl, rfl⟩ | ⟨p, l, rfl, rfl⟩
    · exact .inl ⟨ho, rfl⟩
    · exact .inr ⟨p, l, ho, rfl⟩
  refine .inr ⟨e, v, _, b, h₁, h₈, h₉, hx, finish_run.1 hf, ?_, .inr (.inr ⟨held, jobCancel, stop,
    renewer, ending, j, lost, h₂, h₃, h₄, h₅, h₆, h₇, hheld', hj, hs, hst, hp, hc, hjn, ?_, rfl,
    hrel, rfl, settled_isSuccess, ?_, ?_⟩)⟩
  · intro m hm
    obtain ⟨rfl, hg⟩ := reported_success (Option.some.inj (Except.ok.inj hm))
    rw [hg] at hf ⊢
    exact ⟨rfl, rfl, finish_success_run hf⟩
  · intro k k' hk
    obtain ⟨l, rfl, hR⟩ := renewal_run hk
    rwa [lost_eq_of_bool hlost]
  · rintro m rfl rfl
    rfl
  · intro hl
    obtain ⟨m, rest, hm, hrest⟩ := reported_lost hl
    exact ⟨m, rest, by rw [hm], hrest⟩

/-- A runner of scripts takes the one entry of its queue, whose script succeeds: the run
completes the entry and returns the success. -/
theorem runOnce_settles_once_succeeded :
    ∃ h', (runOnce ⟨.script, RunnerOptions.default, none⟩ 1).Run
        { queue := { store := (Queue.Store.enqueue "a"
          [123, 34, 100, 111, 34, 58, 34, 115, 117, 99, 99, 101, 101, 100, 34, 125]
          (Stamp.ofMillis 1700000000000) {}).1 } }
        (.ok (some (.success none))) h' ∧
      SettledOnce ⟨.script, RunnerOptions.default, none⟩ 1
        { queue := { store := (Queue.Store.enqueue "a"
          [123, 34, 100, 111, 34, 58, 34, 115, 117, 99, 99, 101, 101, 100, 34, 125]
          (Stamp.ofMillis 1700000000000) {}).1 } }
        (.ok (some (.success none))) h' := by
  obtain ⟨h', hr⟩ : ∃ h', (runOnce ⟨.script, RunnerOptions.default, none⟩ 1).Run
      { queue := { store := (Queue.Store.enqueue "a"
        [123, 34, 100, 111, 34, 58, 34, 115, 117, 99, 99, 101, 101, 100, 34, 125]
        (Stamp.ofMillis 1700000000000) {}).1 } }
      (.ok (some (.success none))) h' := by
    apply Exists.intro
    -- follow the program node by node, every wait being over at once
    repeat (first | apply Run.read | apply Run.put | apply Run.spawn | apply Run.wait_now)
    exact run_done.2 ⟨by decide, rfl⟩
  exact ⟨h', hr, runOnce_settles_once hr⟩

end Jobs

end Backplane
