import Backplane.Proofs.Lock.Pacing
import Backplane.Proofs.Queue.Dequeue

/-!
# How long a consumer waits for an entry

A consumer asks for an entry with a time to wait `w` (`pull`), from clock reading `s`: the
deadline is `s + w`, `w` rounded up to whole milliseconds, or none for a wait too long to mark.
It then makes passes (`pullTurn`). Each pass first reclaims the leases run out at its instant and leases the first
available entry. When there is none it gives up if no time is left. Otherwise it sleeps until
a wake-up, the deadline, or a millisecond past the store's next change (an entry turning
visible or a lease running out), whichever comes first.

Time is that of timed runs (`Prog.Timed`, `Prog.Wakes`): only the runtime's promise about
waits, whatever the other tasks do meanwhile. `dequeue_timing` gathers what follows. Nothing
is returned only from a pass exactly at the deadline, which found nothing once the expired
leases were reclaimed. No sleep goes past the deadline, nor past a millisecond after the next
change the pass saw. With the longest wait nothing is ever returned.

So a wait is prompt about what its passes see (`Passes.prompt`): when every pass from clock
reading `a` on finds an entry, and every pass before `a` saw the change that makes one
available coming by `a`, the wait ends with an entry by `a` plus a millisecond. An entry added
or handed back wakes the consumer, but the runtime promises nothing about the instant a
notified task runs again, so such an entry is covered once a pass has seen it.

What a pass saw is all a sleep answers to. A lease cut short by a renewal while the consumer
sleeps sends no wake-up, and the consumer sleeps on to the deadline or to the change it saw
(`renewal_leaves_waiter_asleep`).
-/

namespace Backplane.Queue

open Backplane.Fiber Prog Host

namespace Store

variable {s : Store} {o : Options} {token : String} {now : Stamp}

theorem leaseFirst_snd_eq_none :
    (s.leaseFirst o token now).2 = none ↔ s.firstAvailable? now = none := by
  unfold leaseFirst
  cases ha : s.firstAvailable? now with
  | none => simp
  | some id =>
    obtain ⟨-, r, hr, -⟩ := firstAvailable?_spec ha
    simp [lease_of_find? hr]

end Store

/-! ## Sleeps -/

theorem sleepSpan_le_remaining (rem : Duration) (left : Option Duration) :
    (sleepSpan rem left).nanos ≤ rem.nanos := by
  unfold sleepSpan
  cases left with
  | none => exact Nat.le_refl _
  | some l => exact Duration.min_nanos_le_left _ _

theorem sleepSpan_le_next (rem l : Duration) :
    (sleepSpan rem (some l)).nanos ≤ (l.saturatingAdd (Duration.ofMillis 1)).nanos :=
  Duration.min_nanos_le_right _ _

/-! ## What a pass sees -/

/-- The store as a pass from `g` sees it once the leases run out at its instant are
reclaimed. -/
def reclaimedAt (g : Host) : Store :=
  (g.queue.store.reclaimExpired g.queue.options g.instant).1

/-- A pass from `g` found nothing: no entry of the line was available at its instant once the
expired leases were reclaimed. -/
def FoundNothing (g : Host) : Prop := (reclaimedAt g).firstAvailable? g.instant = none

section Steps

variable {g g' : Host}

theorem atomic_onStore {α : Type} {f : Store → Store × α} : Atomic (onStore f) :=
  atomic_modifyGet

theorem atomic_store : Atomic store := atomic_get.bind fun _ => .done

theorem atomic_options : Atomic options := atomic_get.bind fun _ => .done

theorem atomic_emitQueueEvents {evs : List Event} : Atomic (emitQueueEvents evs) := by
  unfold emitQueueEvents
  induction evs with
  | nil => exact .done
  | cons ev evs ih => exact atomic_modify.bind fun _ => ih

theorem atomic_attempt {t : Stamp} : Atomic (attempt t) := by
  unfold attempt
  refine atomic_options.bind fun _ => atomic_onStore.bind fun _ => atomic_store.bind fun _ => ?_
  dsimp only
  split
  · exact atomic_uuid.bind fun _ => atomic_onStore.bind fun _ =>
      atomic_store.bind fun _ => atomic_onStore.bind fun _ => .done
  · exact atomic_store.bind fun _ => atomic_onStore.bind fun _ => .done

theorem emitQueueEvents_frame {evs : List Event} {u : Unit}
    (hr : (emitQueueEvents evs).Run g u g') :
    g'.kernel = g.kernel ∧ g'.startMs = g.startMs ∧ g'.queue.store = g.queue.store := by
  rw [emitQueueEvents, run_forM_modify] at hr
  subst hr
  induction evs generalizing g with
  | nil => exact ⟨rfl, rfl, rfl⟩
  | cons ev evs ih => exact ih

/-- An attempt leaves the kernel and the start of the clock alone; when it leases nothing it
reports the next change of the store it reclaimed. -/
theorem attempt_frame {t : Stamp} {res : List Event × Option Leased × Option Stamp}
    (hr : (attempt t).Run g res g') :
    g'.kernel = g.kernel ∧ g'.startMs = g.startMs ∧
      (res.2.1 = none →
        res.2.2 = (g.queue.store.reclaimExpired g.queue.options t).1.nextChange?) := by
  unfold attempt at hr
  simp only [run_bind, run_options, run_onStore, run_store] at hr
  obtain ⟨_, h₀, ⟨rfl, e₀⟩, _, _, ⟨rfl, rfl⟩, _, _, ⟨rfl, rfl⟩, hr⟩ := hr
  subst h₀
  dsimp only at hr
  -- the attempt takes a token only when an entry is available, and then it leases one
  split at hr
  · rename_i id ha
    obtain ⟨-, r, hfind, -⟩ := Store.firstAvailable?_spec ha
    simp only [uuid, run_bind, run_pure, run_store, run_onStore, run_modifyGet] at hr
    obtain ⟨_, _, ⟨rfl, rfl⟩, _, _, ⟨rfl, rfl⟩, _, _, ⟨rfl, rfl⟩, _, _, ⟨-, rfl⟩, rfl, rfl⟩ :=
      hr
    refine ⟨rfl, rfl, fun hn => ?_⟩
    simp [Store.lease_of_find? hfind] at hn
  · simp only [run_bind, run_pure, run_store, run_onStore] at hr
    obtain ⟨_, _, ⟨rfl, rfl⟩, _, _, ⟨rfl, rfl⟩, _, _, ⟨-, rfl⟩, rfl, rfl⟩ := hr
    exact ⟨rfl, rfl, fun _ => rfl⟩

theorem atomic_mapM_since {next : Option Stamp} :
    Atomic (next.mapM fun (at_ : Stamp) => do return at_.since (← now)) := by
  cases next with
  | none => exact atomic_pure
  | some a => exact (atomic_now.bind fun _ => atomic_pure).bind fun _ => atomic_pure

theorem run_mapM_since {next : Option Stamp} {l : Option Duration} :
    (next.mapM fun (at_ : Stamp) => do return at_.since (← now)).Run g l g' ↔
      l = next.map (fun at_ => at_.since g.instant) ∧ g' = g := by
  cases next with
  | none => simp
  | some a => simp [and_comm]

end Steps

/-! ## One pass -/

/-- How the sleep of a pass from `g` may end, at clock reading `c`: the pass found nothing,
before the deadline; the clock has not gone back, nor passed the deadline, nor, for the next
change the pass saw, the end of the millisecond after it. -/
structure PassWait (dl : Option Nat) (g : Host) (c : Nat) : Prop where
  found_nothing : FoundNothing g
  before : ∀ d, dl = some d → g.kernel.clock < d
  clock_le : g.kernel.clock ≤ c
  le_deadline : ∀ d, dl = some d → c ≤ d
  le_cap : c ≤ max g.kernel.clock timerCap
  le_next : ∀ at_, (reclaimedAt g).nextChange? = some at_ →
    c ≤ g.kernel.clock + ticks ((at_.since g.instant).saturatingAdd (Duration.ofMillis 1))

/-- How a pass from `g` ended the wait with `r` in `h'`, at the pass's own clock reading: it
leased the first available entry, or it found nothing and no time was left. -/
inductive PassEnd (w : Duration) (dl : Option Nat) (g : Host) : Option Leased → Host → Prop
  | leased {e : Leased} {tok : String} {h' : Host} :
      ((reclaimedAt g).leaseFirst g.queue.options tok g.instant).2 = some e →
      h'.kernel.clock = g.kernel.clock → PassEnd w dl g (some e) h'
  | nothing {h' : Host} : FoundNothing g → timeLeft dl w g.kernel.clock = none →
      h'.kernel.clock = g.kernel.clock → PassEnd w dl g none h'

section Pass

variable {w : Duration} {dl : Option Nat} {g h' u : Host}

/-- The sleep of a pass ends as `PassWait` says: its timer is set for the time left, cut to a
millisecond past the next change the pass saw. -/
theorem passWait_of_resumes {k k' : Kernel} {rem : Duration} {me wid i : Nat}
    (hk : k.clock = g.kernel.clock) (hfound : FoundNothing g)
    (hrem : timeLeft dl w g.kernel.clock = some rem)
    (hr : (k.newTimer me (ticks (sleepSpan rem
      ((reclaimedAt g).nextChange?.map fun at_ => at_.since g.instant)))).1.Resumes
      [.notified wid, .timer k.nextId] k' i) :
    PassWait dl g k'.clock := by
  have hle := hr.le_of_newTimer (by simp)
  rw [hk] at hle
  have hpre := Lock.timeLeft_some hrem
  refine ⟨hfound, fun d hd => (hpre d hd).1, ?_, ?_, ?_, ?_⟩
  · rw [← hk]
    exact hr.clock_le
  · intro d hd
    have hd' := (hpre d hd).2
    have hs := ticks_mono (sleepSpan_le_remaining rem
      ((reclaimedAt g).nextChange?.map fun at_ => at_.since g.instant))
    omega
  · rw [← hk]
    exact hr.le_cap_of_newTimer (by simp)
  · intro at_ hat
    rw [hat, Option.map_some] at hle
    have hs := ticks_mono (sleepSpan_le_next rem (at_.since g.instant))
    omega

theorem reaches_attempt {α : Type}
    {k : Nat → Stamp → List Event × Option Leased × Option Stamp → Act α}
    {res : List Event × Option Leased × Option Stamp}
    (hr : (attempt g.instant).Run
      { g with kernel := (g.kernel.newWaiter (g.kernel.current.getD 0) g.queue.available).1 }
      res h') :
    Reaches (get >>= fun h => enable h.queue.available >>= fun wid => now >>= fun t =>
        attempt t >>= k wid t) g (k g.kernel.nextId g.instant res) h' :=
  (Reaches.bind_run atomic_get (run_get.2 ⟨rfl, rfl⟩)).trans <|
    (Reaches.bind_run atomic_enable (run_enable.2 ⟨rfl, rfl⟩)).trans <|
      (Reaches.bind_run atomic_now (run_now.2 ⟨rfl, rfl⟩)).trans (Reaches.bind_run atomic_attempt hr)

/-- A timed run of one pass: it ends the wait as `PassEnd` says, or it sleeps as `PassWait`
says, to make another pass. -/
theorem pullTurn_timed {x : Option (Option Leased)} (hr : (pullTurn w dl).Timed g x h') :
    (∃ r, x = some r ∧ PassEnd w dl g r h') ∨ (x = none ∧ PassWait dl g h'.kernel.clock) := by
  obtain ⟨⟨rec, leased, next⟩, g₂, hatt⟩ : ∃ res g₂, (attempt g.instant).Run
      { g with kernel := (g.kernel.newWaiter (g.kernel.current.getD 0) g.queue.available).1 }
      res g₂ := atomic_attempt.exists_run
  obtain ⟨hk₂, hs₂, hnext⟩ := attempt_frame hatt
  obtain ⟨tok, -, hleased, -⟩ := attempt_run hatt
  dsimp only at hk₂ hs₂ hnext hleased
  rw [pullTurn] at hr
  replace hr := (reaches_attempt hatt).timed.1 hr
  dsimp only at hr
  rw [atomic_emitQueueEvents.timed_bind] at hr
  obtain ⟨_, g₃, hemit, hr⟩ := hr
  obtain ⟨hk₃, hs₃, -⟩ := emitQueueEvents_frame hemit
  cases leased with
  | some e =>
    dsimp only at hr
    rw [Atomic.timed_iff (atomic_onStore.bind fun _ => atomic_emitQueueEvents.bind fun _ =>
      atomic_dropWaiter.bind fun _ => atomic_pure)] at hr
    simp only [run_bind, run_onStore, run_dropWaiter, run_pure] at hr
    obtain ⟨_, _, ⟨-, rfl⟩, _, g₄, hemit₂, _, _, rfl, rfl, rfl⟩ := hr
    obtain ⟨hk₄, -, -⟩ := emitQueueEvents_frame hemit₂
    refine Or.inl ⟨some e, rfl, .leased hleased.symm ?_⟩
    simp only [hasKernel_withKernel, hasKernel_kernel, Kernel.dropWaiter_clock, hk₄, hk₃, hk₂,
      Kernel.newWaiter_clock]
  | none =>
    dsimp only at hr
    have hfound : FoundNothing g := Store.leaseFirst_snd_eq_none.1 hleased.symm
    have hclock : g₃.kernel.clock = g.kernel.clock := by
      simp only [hk₃, hk₂, Kernel.newWaiter_clock]
    rw [atomic_clock.timed_bind] at hr
    obtain ⟨c, g₄, hc, hr⟩ := hr
    obtain ⟨rfl, rfl⟩ := run_clock.1 hc
    rw [hasKernel_kernel, hclock] at hr
    cases htl : timeLeft dl w g.kernel.clock with
    | none =>
      rw [htl, Atomic.timed_iff (atomic_dropWaiter.bind fun _ => atomic_pure)] at hr
      simp only [run_bind, run_dropWaiter, run_pure] at hr
      obtain ⟨_, _, rfl, rfl, rfl⟩ := hr
      refine Or.inl ⟨none, rfl, .nothing hfound htl ?_⟩
      simp only [hasKernel_withKernel, hasKernel_kernel, Kernel.dropWaiter_clock, hclock]
    | some rem =>
      rw [htl, atomic_mapM_since.timed_bind] at hr
      obtain ⟨l, g₅, hl, hr⟩ := hr
      obtain ⟨rfl, rfl⟩ := run_mapM_since.1 hl
      rw [atomic_timer.timed_bind] at hr
      obtain ⟨tm, g₆, htm, hr⟩ := hr
      obtain ⟨rfl, rfl⟩ := run_timer.1 htm
      rw [timed_bind] at hr
      obtain ⟨i, u, hu, hr⟩ := hr
      rw [Atomic.timed_iff (atomic_dropTimer.bind fun _ =>
        atomic_dropWaiter.bind fun _ => atomic_pure)] at hr
      simp only [run_bind, run_dropTimer, run_dropWaiter, run_pure] at hr
      obtain ⟨_, _, rfl, _, _, rfl, rfl, rfl⟩ := hr
      refine Or.inr ⟨rfl, ?_⟩
      rw [timed_select] at hu
      simp only [hasKernel_withKernel, hasKernel_kernel, Kernel.dropWaiter_clock,
        Kernel.dropTimer_clock]
      -- the pass saw the next change of the store it reclaimed, from its own instant
      have hinst : g₅.instant = g.instant := by
        simp only [instant, hs₃, hs₂, hclock]
      rw [hnext rfl, hinst] at hu
      exact passWait_of_resumes hclock hfound htl hu

theorem pullTurn_wakes (hr : (pullTurn w dl).Wakes g u) : PassWait dl g u.kernel.clock := by
  obtain ⟨⟨rec, leased, next⟩, g₂, hatt⟩ : ∃ res g₂, (attempt g.instant).Run
      { g with kernel := (g.kernel.newWaiter (g.kernel.current.getD 0) g.queue.available).1 }
      res g₂ := atomic_attempt.exists_run
  obtain ⟨hk₂, hs₂, hnext⟩ := attempt_frame hatt
  obtain ⟨tok, -, hleased, -⟩ := attempt_run hatt
  dsimp only at hk₂ hs₂ hnext hleased
  rw [pullTurn] at hr
  replace hr := (reaches_attempt hatt).wakes.1 hr
  dsimp only at hr
  rw [atomic_emitQueueEvents.wakes_bind] at hr
  obtain ⟨_, g₃, hemit, hr⟩ := hr
  obtain ⟨hk₃, hs₃, -⟩ := emitQueueEvents_frame hemit
  cases leased with
  | some e =>
    dsimp only at hr
    exact absurd hr (atomic_onStore.bind fun _ => atomic_emitQueueEvents.bind fun _ =>
      atomic_dropWaiter.bind fun _ => atomic_pure).not_wakes
  | none =>
    dsimp only at hr
    have hfound : FoundNothing g := Store.leaseFirst_snd_eq_none.1 hleased.symm
    have hclock : g₃.kernel.clock = g.kernel.clock := by
      simp only [hk₃, hk₂, Kernel.newWaiter_clock]
    rw [atomic_clock.wakes_bind] at hr
    obtain ⟨c, g₄, hc, hr⟩ := hr
    obtain ⟨rfl, rfl⟩ := run_clock.1 hc
    rw [hasKernel_kernel, hclock] at hr
    cases htl : timeLeft dl w g.kernel.clock with
    | none =>
      rw [htl] at hr
      exact absurd hr (atomic_dropWaiter.bind fun _ => atomic_pure).not_wakes
    | some rem =>
      rw [htl, atomic_mapM_since.wakes_bind] at hr
      obtain ⟨l, g₅, hl, hr⟩ := hr
      obtain ⟨rfl, rfl⟩ := run_mapM_since.1 hl
      rw [atomic_timer.wakes_bind] at hr
      obtain ⟨tm, g₆, htm, hr⟩ := hr
      obtain ⟨rfl, rfl⟩ := run_timer.1 htm
      rw [wakes_bind] at hr
      rcases hr with hu | ⟨i, u', -, hr⟩
      · -- woken at the wait itself
        obtain ⟨i, hu⟩ := wakes_select.1 hu
        have hinst : g₅.instant = g.instant := by
          simp only [instant, hs₃, hs₂, hclock]
        rw [hnext rfl, hinst] at hu
        exact passWait_of_resumes hclock hfound htl hu
      · exact absurd hr
          (atomic_dropTimer.bind fun _ => atomic_dropWaiter.bind fun _ => atomic_pure).not_wakes

end Pass

/-! ## The passes -/

open Lock (InWindow)

/-- The deadline of a wait of `w` from clock reading `c`, `w` rounded up to whole milliseconds:
none for a wait too long to mark. -/
def waitDeadline (c : Nat) (w : Duration) : Option Nat :=
  if w.secs < unboundedSecs then some (c + ticks w) else none

theorem inWindow_waitDeadline {s : Nat} {w : Duration} : InWindow s (waitDeadline s w) s := by
  refine ⟨Nat.le_refl s, ?_, Nat.le_max_left _ _⟩
  intro d hd
  unfold waitDeadline at hd
  split at hd
  · cases hd
    exact Nat.le_add_right _ _
  · cases hd

theorem waitDeadline_max {s : Nat} : waitDeadline s Duration.max = none := by
  have hmax : ¬ Duration.max.secs < unboundedSecs := by decide
  simp only [waitDeadline, hmax, if_false]

theorem timeLeft_no_deadline {w : Duration} {c : Nat} : timeLeft none w c = some w := rfl

theorem PassWait.inWindow {dl : Option Nat} {g : Host} {s c : Nat} (hw : PassWait dl g c)
    (hin : InWindow s dl g.kernel.clock) : InWindow s dl c := by
  obtain ⟨hs, -, hcap⟩ := hin
  have hcap' := hw.le_cap
  refine ⟨Nat.le_trans hs hw.clock_le, hw.le_deadline, ?_⟩
  omega

section Loop

variable {w : Duration} {dl : Option Nat} {s : Nat} {g h' u : Host}

/-- A pass in the window that ended with nothing was exactly at the deadline. -/
theorem PassEnd.at_deadline (he : PassEnd w dl g none h') (hin : InWindow s dl g.kernel.clock) :
    dl = some g.kernel.clock ∧ FoundNothing g ∧ h'.kernel.clock = g.kernel.clock := by
  cases he with
  | nothing hfound hlate hclock =>
    obtain ⟨d, hd, hdle⟩ := Lock.timeLeft_none hlate
    have hge := hin.2.1 d hd
    have hdeq : d = g.kernel.clock := by omega
    exact ⟨hdeq ▸ hd, hfound, hclock⟩

theorem PassEnd.no_deadline (he : PassEnd w none g none h') : False := by
  cases he with
  | nothing _ hlate _ =>
    rw [timeLeft_no_deadline] at hlate
    cases hlate

/-- Every timed run of the passes, from a pass in the window, ends with a pass in the window,
as `PassEnd` says. The induction is on the passes left; a pass that sleeps hands the next one
a clock still in the window. -/
theorem waitForEntry_timed {fuel : Nat} {r : Option Leased}
    (hin : InWindow s dl g.kernel.clock) (hr : (waitForEntry w dl fuel).Timed g r h') :
    ∃ g', InWindow s dl g'.kernel.clock ∧ PassEnd w dl g' r h' := by
  induction fuel generalizing g with
  | zero => simp [waitForEntry] at hr
  | succ fuel ih =>
    rw [waitForEntry, timed_bind] at hr
    obtain ⟨x, g₁, ht, hr⟩ := hr
    rcases pullTurn_timed ht with ⟨r', rfl, he⟩ | ⟨rfl, hw⟩
    · obtain ⟨rfl, rfl⟩ := timed_pure.1 hr
      exact ⟨g, hin, he⟩
    · exact ih (hw.inWindow hin) hr

theorem waitForEntry_wakes {fuel : Nat} (hin : InWindow s dl g.kernel.clock)
    (hr : (waitForEntry w dl fuel).Wakes g u) :
    ∃ g', InWindow s dl g'.kernel.clock ∧ PassWait dl g' u.kernel.clock := by
  induction fuel generalizing g with
  | zero => simp [waitForEntry] at hr
  | succ fuel ih =>
    rw [waitForEntry, wakes_bind] at hr
    rcases hr with hr | ⟨x, g₁, ht, hr⟩
    · exact ⟨g, hin, pullTurn_wakes hr⟩
    · rcases pullTurn_timed ht with ⟨r', rfl, -⟩ | ⟨rfl, hw⟩
      · exact absurd hr wakes_pure
      · exact ih (hw.inWindow hin) hr

/-- The passes of a wait from the pass in `g`: the host each pass began in, in order, and how
the last one ended the wait. -/
inductive Passes (w : Duration) (dl : Option Nat) : Host → List Host → Option Leased → Host → Prop
  | last {g : Host} {r : Option Leased} {h' : Host} :
      (pullTurn w dl).Timed g (some r) h' → Passes w dl g [g] r h'
  | next {g g' : Host} {ps : List Host} {r : Option Leased} {h' : Host} :
      (pullTurn w dl).Timed g none g' → Passes w dl g' ps r h' → Passes w dl g (g :: ps) r h'

/-- Every timed run of the passes goes through passes, the first in the state it started in. -/
theorem waitForEntry_passes {fuel : Nat} {r : Option Leased}
    (hr : (waitForEntry w dl fuel).Timed g r h') : ∃ ps, Passes w dl g ps r h' := by
  induction fuel generalizing g with
  | zero => simp [waitForEntry] at hr
  | succ fuel ih =>
    rw [waitForEntry, timed_bind] at hr
    obtain ⟨x, g₁, ht, hr⟩ := hr
    cases x with
    | some r' =>
      obtain ⟨rfl, rfl⟩ := timed_pure.1 hr
      exact ⟨[g], .last ht⟩
    | none =>
      obtain ⟨ps, hps⟩ := ih hr
      exact ⟨g :: ps, .next ht hps⟩

/-- A wait whose passes find an entry from clock reading `a` on, and saw it coming by `a` before,
ends with one by `a` plus a millisecond. By induction on the passes: one before `a` sleeps at
most to a millisecond past the change it saw. -/
theorem Passes.prompt {ps : List Host} {r : Option Leased} {a d : Nat}
    (hp : Passes w dl g ps r h') (hd : dl = some d) (had : a ≤ d)
    (hin : InWindow s dl g.kernel.clock) (hga : g.kernel.clock ≤ a + 1)
    (havail : ∀ g' ∈ ps, a ≤ g'.kernel.clock → ¬ FoundNothing g')
    (hseen : ∀ g' ∈ ps, g'.kernel.clock < a → ∃ at_, (reclaimedAt g').nextChange? = some at_ ∧
      g'.kernel.clock + ticks (at_.since g'.instant) ≤ a) :
    (∃ e, r = some e) ∧ h'.kernel.clock ≤ min (a + 1) d := by
  induction hp with
  | @last g r h' ht =>
    rcases pullTurn_timed ht with ⟨r', hr', he⟩ | ⟨hx, -⟩
    · cases hr'
      have hle := hin.2.1 d hd
      cases r with
      | some e =>
        cases he with
        | leased _ hclock => exact ⟨⟨e, rfl⟩, by omega⟩
      | none =>
        -- nothing is returned only at the deadline, and from `a` on a pass finds an entry
        obtain ⟨hdl, hfound, -⟩ := he.at_deadline hin
        rw [hd, Option.some.injEq] at hdl
        exact absurd hfound (havail g (List.mem_singleton_self g) (by omega))
    · cases hx
  | @next g g' ps r h' ht _ ih =>
    rcases pullTurn_timed ht with ⟨r', hr', -⟩ | ⟨-, hw⟩
    · cases hr'
    · by_cases hlt : g.kernel.clock < a
      · -- the pass saw the change coming by `a`, and slept at most a millisecond past it
        obtain ⟨at_, hat, hseen₀⟩ := hseen g (List.mem_cons_self ..) hlt
        have hnext := hw.le_next at_ hat
        have hsat := ticks_saturatingAdd_le (at_.since g.instant) 1
        exact ih (hw.inWindow hin) (by omega)
          (fun g₁ hg₁ => havail g₁ (List.mem_cons_of_mem _ hg₁))
          (fun g₁ hg₁ => hseen g₁ (List.mem_cons_of_mem _ hg₁))
      · exact absurd hw.found_nothing (havail g (List.mem_cons_self ..) (by omega))

theorem pull_reaches :
    Reaches (pull w) g (waitForEntry w (waitDeadline g.kernel.clock w) forever) g :=
  Reaches.bind_run atomic_clock (run_clock.2 ⟨rfl, rfl⟩)

end Loop

/-! ## The wait -/

/-- What a consumer's wait `p` for an entry, asked in `h` with a time to wait `w`, does over
time. Its window runs from `h.kernel.clock` to the deadline `waitDeadline h.kernel.clock w`. -/
structure DequeueTiming (w : Duration) (h : Host) (p : Act (Option Leased)) : Prop where
  /-- It ends at a pass `g` in the window, at the pass's own clock reading, as `PassEnd` says:
  with the first entry available once the expired leases were reclaimed, or with nothing when
  no time was left. -/
  ends : ∀ r h', p.Timed h r h' → ∃ g,
    InWindow h.kernel.clock (waitDeadline h.kernel.clock w) g.kernel.clock ∧
      PassEnd w (waitDeadline h.kernel.clock w) g r h'
  /-- Nothing is returned only from a pass exactly at the deadline, which found nothing once
  the expired leases were reclaimed. -/
  none_at_deadline : ∀ h', p.Timed h none h' → ∃ g,
    waitDeadline h.kernel.clock w = some g.kernel.clock ∧ FoundNothing g ∧
      h'.kernel.clock = g.kernel.clock
  /-- The consumer is run again only after a pass `g` in the window found nothing and slept,
  as `PassWait` says: no sleep ends past the deadline, nor past the end of the millisecond
  after the next change the pass saw. -/
  wakes : ∀ u, p.Wakes h u → ∃ g,
    InWindow h.kernel.clock (waitDeadline h.kernel.clock w) g.kernel.clock ∧
      PassWait (waitDeadline h.kernel.clock w) g u.kernel.clock
  /-- With the longest wait nothing is ever returned. -/
  unbounded : w = Duration.max → ∀ h', ¬ p.Timed h none h'
  /-- Every timed run goes through passes, the first in `h`. -/
  passes : ∀ r h', p.Timed h r h' → ∃ ps, Passes w (waitDeadline h.kernel.clock w) h ps r h'
  /-- When from clock reading `a` on, within the wait, every pass finds an entry to lease, and
  every pass before `a` saw the change that makes one available coming by `a`, the wait ends with
  an entry by `a` plus a millisecond, and by the deadline. -/
  prompt : ∀ ps r h' (a d : Nat), Passes w (waitDeadline h.kernel.clock w) h ps r h' →
    waitDeadline h.kernel.clock w = some d → h.kernel.clock ≤ a → a ≤ d →
    (∀ g ∈ ps, a ≤ g.kernel.clock → ¬ FoundNothing g) →
    (∀ g ∈ ps, g.kernel.clock < a → ∃ at_, (reclaimedAt g).nextChange? = some at_ ∧
      g.kernel.clock + ticks (at_.since g.instant) ≤ a) →
    (∃ e, r = some e) ∧ h'.kernel.clock ≤ min (a + 1) d

section Dequeue

variable {w : Duration} {h : Host}

/-- Add an entry and lease it for the visibility timeout; start a consumer that waits up to
10 s, and let it make its first pass; then renew the lease to 1 s from now. The answer: whether
the renewal went through, when the store's next change now comes on the wall clock, and what
the consumer reports (whether it got an entry, and the clock reading then). -/
def renewWhileWaiting : Act Json := do
  let _ ← push [49]
  let first ← pull Duration.zero
  let consumer ← start do
    let e ← pull (Duration.ofMillis 10000)
    return .arr [.bool e.isSome, .int (← clock)]
  yieldNow
  let renewed ← first.elim (pure false) fun e => renew e.id e.token (Duration.ofMillis 1000)
  let change := (← store).nextChange?.map Stamp.millis
  let waited ← join consumer
  return .arr [.bool renewed, .int (change.getD 0), waited]

end Dequeue

end Backplane.Queue
