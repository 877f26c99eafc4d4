import Backplane.Proofs.Queue.Waiting
import Backplane.Proofs.Queue.Backoff

/-!
# What a dequeue hands out

A consumer waits for an entry in passes (`pullTurn`), each an attempt at the pass's instant
with nothing of another task in between. The pass that hands out an entry took it as
`Store.take` does, under the entry's own token, and the wait returns with the entries as that
pass left them (`pullTurn_run_leased`, then `pull_run_leased` over the passes). There the
entry is leased to its token from the instant of the pass until the visibility timeout after
it (`Store.take_leased_record`), so it is owned as long as that timeout has not run out.

A typed dequeue (`pullTyped`) reads the payload after that pass: an entry that reads is
returned so, and one that does not is handed back with the reading error as its reason.
-/

open Backplane.Fiber Backplane.Fiber.Prog

namespace Backplane

namespace Stamp

theorem lt_addOrMax {t : Stamp} {d : Duration} (hd : 0 < d.nanos)
    (ht : t.nanos < maxUtc.nanos) : t < t.addOrMax d := by
  show t.nanos < (t.addOrMax d).nanos
  rw [addOrMax_nanos]
  split <;> omega

end Stamp

namespace Queue

namespace Store

variable {s : Store} {o : Options} {tok : String} {now : Stamp} {e : Leased}

theorem leaseFirst_token (h : (s.leaseFirst o tok now).2 = some e) : e.token = tok := by
  rcases leaseFirst_cases s o tok now with hn | ⟨id, r, -, hr, hl⟩
  · rw [hn] at h
    cases h
  · rw [hl, lease_of_find? hr] at h
    cases h
    rfl

/-- An attempt that hands out `e` leaves it leased to `e`'s token, from the attempt's instant
until the visibility timeout after it. -/
theorem take_leased_record (h : (s.take o tok now).2.2 = some e) :
    e.token = tok ∧ e.dequeuedAt = now ∧ e.leaseUntil = now.addOrMax o.visibilityTimeout ∧
      ∃ r, (s.take o tok now).1.find? e.id = some r ∧ r.state = .dequeued e.leaseUntil ∧
        r.leaseToken = some e.token := by
  rw [take_leased] at h
  rcases leaseFirst_cases (s.reclaimExpired o now).1 o tok now with hn | ⟨id, r, -, hr, hl⟩
  · rw [hn] at h
    cases h
  · rw [hl, lease_of_find? hr] at h
    cases h
    refine ⟨rfl, rfl, rfl, r.startLease tok (now.addOrMax o.visibilityTimeout) now, ?_, rfl, rfl⟩
    rw [find?_take, hl, find?_lease hr, if_pos rfl]

end Store

theorem Record.isOwnedBy_of_leased {r : Record} {t now : Stamp} {tok : String}
    (hs : r.state = .dequeued t) (ht : r.leaseToken = some tok) :
    r.isOwnedBy tok now = true ↔ now < t := by
  rw [Record.isOwnedBy_iff]
  constructor
  · rintro ⟨t', ht', hlt, -⟩
    rw [hs] at ht'
    cases ht'
    exact hlt
  · intro hlt
    exact ⟨t, hs, hlt, ht⟩

open Host

/-! ## The options stay -/

section Options

variable {t : Stamp} {evs : List Event} {g g' : Host}

theorem emitQueueEvents_options {u : Unit} (hr : (emitQueueEvents evs).Run g u g') :
    g'.queue.options = g.queue.options := by
  rw [emitQueueEvents, run_forM_modify] at hr
  subst hr
  induction evs generalizing g with
  | nil => rfl
  | cons ev evs ih => exact ih

theorem attempt_options {res : List Event × Option Leased × Option Stamp}
    (hr : (attempt t).Run g res g') : g'.queue.options = g.queue.options := by
  unfold attempt at hr
  simp only [run_bind, run_options, run_onStore, run_store] at hr
  obtain ⟨_, h₀, ⟨rfl, e₀⟩, _, _, ⟨rfl, rfl⟩, _, _, ⟨rfl, rfl⟩, hr⟩ := hr
  subst h₀
  dsimp only at hr
  split at hr
  · simp only [uuid, run_bind, run_pure, run_store, run_onStore, run_modifyGet] at hr
    obtain ⟨_, _, ⟨rfl, rfl⟩, _, _, ⟨rfl, rfl⟩, _, _, ⟨rfl, rfl⟩, _, _, ⟨-, rfl⟩, rfl, rfl⟩ :=
      hr
    rfl
  · simp only [run_bind, run_pure, run_store, run_onStore] at hr
    obtain ⟨_, _, ⟨rfl, rfl⟩, _, _, ⟨rfl, rfl⟩, _, _, ⟨-, rfl⟩, rfl, rfl⟩ := hr
    rfl

end Options

section Passes

variable {w : Duration} {dl : Option Nat} {g h' : Host} {e : Leased}

/-- A pass that handed out `e` took it at its instant as `Store.take` does, under `e`'s token,
and left the entries so. -/
theorem pullTurn_run_leased (hr : (pullTurn w dl).Run g (some (some e)) h') :
    (g.queue.store.take g.queue.options e.token g.instant).2.2 = some e ∧
      h'.queue.store = (g.queue.store.take g.queue.options e.token g.instant).1 ∧
      h'.instant = g.instant ∧ h'.queue.options = g.queue.options := by
  unfold pullTurn at hr
  simp only [run_bind, run_get, run_enable, run_now] at hr
  obtain ⟨x₀, g₀, ⟨hx₀, hg₀⟩, wid, g₁, ⟨hwid, hg₁⟩, t, g₁', ⟨ht, hg₁'⟩, res, g₂, hatt, hr⟩ := hr
  subst x₀ g₀ wid g₁ t g₁'
  obtain ⟨_, g₃, hemit, hr⟩ := hr
  have hinst : (HasKernel.withKernel g ((HasKernel.kernel g).newWaiter
      ((HasKernel.kernel g).current.getD 0) g.queue.available).1).instant = g.instant := by
    simp [instant]
  rw [hinst] at hatt hr
  obtain ⟨tok, hrec, hleased, hs₂⟩ := attempt_run hatt
  obtain ⟨hk₂, hm₂, -⟩ := attempt_frame hatt
  have ho₂ := attempt_options hatt
  obtain ⟨hk₃, hm₃, hs₃⟩ := emitQueueEvents_frame hemit
  have ho₃ := emitQueueEvents_options hemit
  rcases res with ⟨rec, _ | e', next⟩
  · -- a pass that leased nothing hands nothing out
    dsimp only at hr
    simp only [run_bind, run_clock] at hr
    obtain ⟨_, _, ⟨rfl, rfl⟩, hr⟩ := hr
    split at hr
    · simp [run_bind, run_dropWaiter] at hr
    · simp [run_bind, run_dropWaiter, run_dropTimer] at hr
  · dsimp only at hr hleased hs₂
    simp only [run_bind, run_onStore, run_dropWaiter, run_pure] at hr
    obtain ⟨_, _, ⟨-, rfl⟩, _, g₄, hemit₂, _, _, rfl, hee, rfl⟩ := hr
    obtain ⟨hk₄, hm₄, hs₄⟩ := emitQueueEvents_frame hemit₂
    have ho₄ := emitQueueEvents_options hemit₂
    simp only [Option.some.injEq] at hee
    subst hee
    simp only [hasKernel_withKernel, hasKernel_kernel] at hleased hs₂ hk₂ hm₂ hrec
    have htok : e.token = tok := Store.leaseFirst_token hleased.symm
    subst htok
    have htake : g.queue.store.take g.queue.options e.token g.instant =
        ((((g.queue.store.reclaimExpired g.queue.options g.instant).1.leaseFirst g.queue.options
          e.token g.instant).1.countTimeouts (timeouts rec)).countDequeued,
          rec ++ [.dequeued e.id e.attempts e.leaseUntil g.instant], some e) := by
      unfold Store.take
      dsimp only
      rw [← hleased, hrec]
    refine ⟨by rw [htake], ?_, ?_, ?_⟩
    · simp only [hasKernel_withKernel, htake, hs₄, hs₃, hs₂]
    · simp only [instant, hasKernel_withKernel, hasKernel_kernel, Kernel.dropWaiter_clock, hk₄,
        hm₄, hk₃, hm₃, hk₂, hm₂, Kernel.newWaiter_clock]
    · simp only [hasKernel_withKernel] at ho₂ ⊢
      rw [ho₄, ho₃, ho₂]

/-- The passes hand out an entry only as one pass handed it out. The induction is on the
passes left. -/
theorem waitForEntry_run_leased {fuel : Nat} (hr : (waitForEntry w dl fuel).Run g (some e) h') :
    ∃ g', (pullTurn w dl).Run g' (some (some e)) h' := by
  induction fuel generalizing g with
  | zero =>
    simp [waitForEntry, stall] at hr
  | succ fuel ih =>
    rw [waitForEntry, run_bind] at hr
    obtain ⟨x, g₁, ht, hr⟩ := hr
    rcases x with _ | r
    · exact ih hr
    · obtain ⟨rfl, rfl⟩ := run_pure.1 hr
      exact ⟨g, ht⟩

theorem pull_run_leased (hr : (pull w).Run g (some e) h') :
    ∃ dl g', (pullTurn w dl).Run g' (some (some e)) h' := by
  simp only [pull, run_bind, run_clock] at hr
  obtain ⟨_, _, ⟨-, rfl⟩, hr⟩ := hr
  exact ⟨_, waitForEntry_run_leased hr⟩

theorem pullTyped_run_some {item : Json.Shape} {v : Json}
    (hr : (pullTyped item w).Run g (.ok (some (e, v))) h') :
    Wire.decode item ⟨e.payload.toArray⟩ = .ok v ∧
      ∃ dl g', (pullTurn w dl).Run g' (some (some e)) h' := by
  unfold pullTyped at hr
  rw [run_bind] at hr
  obtain ⟨x, g₁, hx, hr⟩ := hr
  rcases x with _ | e'
  · simp at hr
  · dsimp only at hr
    split at hr
    · rename_i v' hv
      obtain ⟨heq, rfl⟩ := run_pure.1 hr
      simp only [Except.ok.injEq, Option.some.injEq, Prod.mk.injEq] at heq
      obtain ⟨rfl, rfl⟩ := heq
      exact ⟨hv, pull_run_leased hx⟩
    · simp [run_bind] at hr

/-- A typed dequeue that returned `e` left it leased to `e`'s token, from the instant it
returned until the visibility timeout after it. -/
theorem pullTyped_run_leased {item : Json.Shape} {v : Json}
    (hr : (pullTyped item w).Run g (.ok (some (e, v))) h') :
    e.dequeuedAt = h'.instant ∧
      e.leaseUntil = h'.instant.addOrMax h'.queue.options.visibilityTimeout ∧
      ∃ r, h'.queue.store.find? e.id = some r ∧ r.state = .dequeued e.leaseUntil ∧
        r.leaseToken = some e.token := by
  obtain ⟨-, dl, g', hp⟩ := pullTyped_run_some hr
  obtain ⟨htake, hs, hi, ho⟩ := pullTurn_run_leased hp
  obtain ⟨-, hd, hl, r, hr, hst, htk⟩ := Store.take_leased_record htake
  rw [hs, hi, ho]
  exact ⟨hd, hl, r, hr, hst, htk⟩

end Passes

end Queue

end Backplane
