import Backplane.Proofs.Lock.Probe

/-!
# When a throttle counts, sleeps and gives up

A throttling provider asked for a grant with a time to try `T`, at most `m` grants a period of
`p` milliseconds, takes turns (`pollThrottle`). Each turn counts one attempt in the period the
wall clock falls in; a count within the limit is a grant until the period's end. Past the
limit it would sleep until a millisecond after the period's end. It gives up at once instead
when that instant comes after the deadline.

Time is that of timed runs (`Prog.Timed`, `Prog.Wakes`, `Prog.Ends`): only the runtime's
promise about waits. `throttle_timing` gathers what follows for an acquire started at clock
reading `s`. A period of no whole millisecond, or of more than the largest 64-bit count of
them, is refused at once and leaves the host as it was. Every turn falls in the window from
`s` to the deadline `s + T`, `T` cut to whole milliseconds. A grant is read off its turn,
with the time waited at most `T`. Nothing is returned only at a turn whose next period begins,
plus a millisecond, after the deadline. A refused turn sleeps exactly to a millisecond past its
period's end, so the next turn counts in a later period. With a deadline inside the timer
range, the acquire ends.

The timer range bounds all of this. A timer is due at the end of the range at the latest, so
once the clock reads that end a sleep takes no time, and a refused turn counts again in the same
period (`throttle_past_timer_range`).
-/

namespace Backplane.Lock

open Backplane.Fiber Prog Host Cache

variable {h h' u : Host}

/-! ## Steps of a provider's program -/

section OnHost

variable {α β : Type} {x : Act α} {g : α → LockM β}

theorem reaches_onHost_bind {a : α} (hx : Atomic x) (hr : x.Run h a h') :
    Reaches ((onHost x >>= g).run) h ((g a).run) h' := by
  simp only [onHost, ExceptT.run_bind, ExceptT.run_lift]
  exact (Reaches.bind_run hx hr).bind

theorem timed_onHost_bind {r : Except LockError β} :
    ((onHost x >>= g).run).Timed h r h' ↔ ∃ a h₁, x.Timed h a h₁ ∧ (g a).run.Timed h₁ r h' := by
  simp only [onHost, ExceptT.run_bind, ExceptT.run_lift, timed_bind, timed_map]
  constructor
  · rintro ⟨_, h₁, ⟨a, hx, rfl⟩, hg⟩
    exact ⟨a, h₁, hx, hg⟩
  · rintro ⟨a, h₁, hx, hg⟩
    exact ⟨_, h₁, ⟨a, hx, rfl⟩, hg⟩

theorem wakes_onHost_bind :
    ((onHost x >>= g).run).Wakes h u ↔
      x.Wakes h u ∨ ∃ a h₁, x.Timed h a h₁ ∧ (g a).run.Wakes h₁ u := by
  simp only [onHost, ExceptT.run_bind, ExceptT.run_lift, wakes_bind, wakes_map, timed_map]
  constructor
  · rintro (hx | ⟨_, h₁, ⟨a, hx, rfl⟩, hg⟩)
    · exact Or.inl hx
    · exact Or.inr ⟨a, h₁, hx, hg⟩
  · rintro (hx | ⟨a, h₁, hx, hg⟩)
    · exact Or.inl hx
    · exact Or.inr ⟨_, h₁, ⟨a, hx, rfl⟩, hg⟩

theorem ends_onHost_bind (hx : x.Ends h) (hg : ∀ a h₁, x.Timed h a h₁ → (g a).run.Ends h₁) :
    ((onHost x >>= g).run).Ends h := by
  simp only [onHost, ExceptT.run_bind, ExceptT.run_lift]
  refine Ends.bind (hx.bind fun _ _ _ => .done) ?_
  intro r h₁ hr
  obtain ⟨a, hx', rfl⟩ := timed_map.1 hr
  exact hg a h₁ hx'

theorem timed_sleep_clock {ms : Nat} (hs : (sleep ms : Act Unit).Timed h () h') :
    h'.kernel.clock = max h.kernel.clock (min (h.kernel.clock + ms) timerCap) := by
  obtain ⟨i, u, hu, rfl⟩ := timed_sleep.1 hs
  simp only [hasKernel_withKernel, hasKernel_kernel] at hu ⊢
  rw [Kernel.dropTimer_clock]
  exact hu.clock_of_sleep

theorem wakes_sleep_clock {ms : Nat} (hs : (sleep ms : Act Unit).Wakes h u) :
    u.kernel.clock = max h.kernel.clock (min (h.kernel.clock + ms) timerCap) := by
  obtain ⟨i, hu⟩ := wakes_sleep.1 hs
  simp only [hasKernel_withKernel, hasKernel_kernel] at hu
  exact hu.clock_of_sleep

end OnHost

/-! ## One turn -/

/-- The period of `p` milliseconds that the host's wall clock falls in. -/
def periodAt (p : Nat) (h : Host) : Bucket := Bucket.containing h.instant.millis p

/-- How long a refused turn sleeps: to a millisecond past its period's end. -/
def pause (p : Nat) (h : Host) : Nat := (periodAt p h).remaining h.instant.millis + 1

theorem pause_pos (p : Nat) (h : Host) : 0 < pause p h := Nat.succ_pos _

theorem run_uuid_eq :
    uuid.Run h (Uuid.ofCounter (h.uuids + 1)) { h with uuids := h.uuids + 1 } := by
  simp [uuid]

section Turn

variable {cache : Nat} {R : String} {m p started fuel : Nat} {dl : Option Nat}

/-- The start of a turn: the instant, then the count in its period, with no other task
running in between. -/
theorem reaches_count {α : Type} {k : Stamp → Except Store.CounterFault Int → LockM α}
    {a : Except Store.CounterFault Int} {h₁ : Host}
    (hrun : (onCache cache ((periodAt p h).count R h.instant)).Run h a h₁) :
    Reaches ((onHost now >>= fun t =>
        onHost (onCache cache ((Bucket.containing t.millis p).count R t)) >>= k t) : LockM α).run
      h (k h.instant a).run h₁ :=
  (reaches_onHost_bind atomic_now (run_now.2 ⟨rfl, rfl⟩)).trans
    (reaches_onHost_bind atomic_onCache hrun)

/-- One turn from `h`, up to its end or its sleep, with no other task running: it counts one
attempt in its period, then fails on a counter fault, grants within the limit, gives up when the
sleep would pass the deadline, or sleeps. -/
theorem pollThrottle_reaches :
    ∃ a h₁, (onCache cache ((periodAt p h).count R h.instant)).Run h a h₁ ∧
      ((∃ f, a = .error f ∧ Reaches (pollThrottle cache R m p started dl (fuel + 1)).run h
          (.done (.error (counterError ((periodAt p h).key R) f))) h₁) ∨
        (∃ n, a = .ok n ∧ n ≤ m ∧ Reaches (pollThrottle cache R m p started dl (fuel + 1)).run h
          (.done (.ok (some ⟨R, Uuid.ofCounter (h₁.uuids + 1), h₁.instant,
            (periodAt p h).endStamp, Duration.ofMillis (h₁.kernel.clock - started), 0⟩)))
          { h₁ with uuids := h₁.uuids + 1 }) ∨
        (∃ n, a = .ok n ∧ (m : Int) < n ∧ (∃ d, dl = some d ∧ d < h.kernel.clock + pause p h) ∧
          Reaches (pollThrottle cache R m p started dl (fuel + 1)).run h (.done (.ok none)) h₁) ∨
        (∃ n, a = .ok n ∧ (m : Int) < n ∧ (∀ d, dl = some d → h.kernel.clock + pause p h ≤ d) ∧
          Reaches (pollThrottle cache R m p started dl (fuel + 1)).run h
            ((onHost (sleep (pause p h)) >>= fun _ =>
              pollThrottle cache R m p started dl fuel).run) h₁)) := by
  obtain ⟨a, h₁, hrun⟩ : ∃ a h₁,
      (onCache cache ((periodAt p h).count R h.instant)).Run h a h₁ :=
    atomic_onCache.exists_run
  obtain ⟨hk, hs⟩ := run_onCache_kernel hrun
  have hi : h₁.instant = h.instant := by
    simp only [instant, hk, hs]
  refine ⟨a, h₁, hrun, ?_⟩
  -- the instant, then the count: the rest of the turn is decided by the count alone
  rw [pollThrottle.eq_2]
  cases a with
  | error f => exact Or.inl ⟨f, rfl, (reaches_count hrun).trans .refl⟩
  | ok n =>
    by_cases hle : n ≤ (m : Int)
    · -- granted: a fresh token, and the lock until the period's end
      refine Or.inr (Or.inl ⟨n, rfl, hle, (reaches_count hrun).trans ?_⟩)
      simp only [hle, if_true]
      refine (reaches_onHost_bind atomic_uuid run_uuid_eq).trans ?_
      exact (reaches_onHost_bind atomic_grant (run_grant_eq.2 ⟨rfl, rfl⟩)).trans .refl
    · -- refused: give up when the sleep would end past the deadline, else sleep
      have hlt : (m : Int) < n := by omega
      have hsame : (Bucket.containing h.instant.millis p).remaining h₁.instant.millis + 1 =
          pause p h := by
        rw [hi]
        rfl
      cases dl with
      | none =>
        refine Or.inr (Or.inr (Or.inr ⟨n, rfl, hlt, fun d hd => (by cases hd),
          (reaches_count hrun).trans ?_⟩))
        simp only [hle, if_false]
        refine (reaches_onHost_bind atomic_now (run_now.2 ⟨rfl, rfl⟩)).trans ?_
        rw [hsame]
        exact .refl
      | some d =>
        have hclock : (HasKernel.kernel h₁).clock = h.kernel.clock := by
          rw [hasKernel_kernel, hk]
        by_cases hd : d < h.kernel.clock + pause p h
        · refine Or.inr (Or.inr (Or.inl ⟨n, rfl, hlt, ⟨d, rfl, hd⟩, (reaches_count hrun).trans ?_⟩))
          simp only [hle, if_false]
          refine (reaches_onHost_bind atomic_now (run_now.2 ⟨rfl, rfl⟩)).trans ?_
          refine (reaches_onHost_bind atomic_clock (run_clock.2 ⟨rfl, rfl⟩)).trans ?_
          rw [hclock, hsame, if_pos hd]
          exact .refl
        · refine Or.inr (Or.inr (Or.inr ⟨n, rfl, hlt, ?_, (reaches_count hrun).trans ?_⟩))
          · rintro d' ⟨⟩
            omega
          · simp only [hle, if_false]
            refine (reaches_onHost_bind atomic_now (run_now.2 ⟨rfl, rfl⟩)).trans ?_
            refine (reaches_onHost_bind atomic_clock (run_clock.2 ⟨rfl, rfl⟩)).trans ?_
            rw [hclock, hsame, if_neg hd]
            exact .refl

end Turn

/-! ## Sleeping to the next period -/

theorem instant_millis : h.instant.millis = ((h.startMs + h.kernel.clock : Nat) : Int) :=
  millis_ofMillis _

/-- A sleep of the pause from the host's clock reading ends, on the wall clock, a millisecond
past the period's end. -/
theorem wall_after_pause {p : Nat} (hp : 0 < p) :
    ((h.startMs + (h.kernel.clock + pause p h) : Nat) : Int) = (periodAt p h).endMs + 1 := by
  have hspec := containing_spec hp h.instant.millis
  have hw := instant_millis (h := h)
  unfold pause Bucket.remaining
  unfold periodAt at hspec ⊢
  have hpos : 0 ≤ (Bucket.containing h.instant.millis p).endMs - h.instant.millis := by omega
  have htn := Int.toNat_of_nonneg hpos
  push_cast
  omega

theorem containing_after_end {p : Nat} (hp : 0 < p) (c : Int) :
    (Bucket.containing c p).endMs ≤
      (Bucket.containing ((Bucket.containing c p).endMs + 1) p).startMs := by
  obtain ⟨hmod, -, -, hend⟩ := containing_spec hp c
  have hp' : (0 : Int) < p := by exact_mod_cast hp
  -- the end is a multiple of the period, so one past it leaves a remainder of at most one
  obtain ⟨k, hk⟩ : (p : Int) ∣ (Bucket.containing c p).endMs := by
    rw [hend]
    exact Int.dvd_add (Int.dvd_of_emod_eq_zero hmod) (Int.dvd_refl _)
  have hrem : ((Bucket.containing c p).endMs + 1) % p = 1 % p := by
    rw [hk, Int.add_comm, Int.add_mul_emod_self_left]
  have hle : 1 % (p : Int) ≤ 1 := by
    have hdef := Int.emod_def 1 (p : Int)
    have hq : 0 ≤ (1 : Int) / p := Int.ediv_nonneg (by omega) (by omega)
    have hprod : 0 ≤ (p : Int) * (1 / p) := Int.mul_nonneg (by omega) hq
    omega
  show (Bucket.containing c p).endMs ≤ _ - _ % (p : Int)
  omega

/-- The sleep of a turn refused in `g`, which ended at clock reading `c`: the count in the
period went past the limit, the deadline leaves room for the pause, and the runtime ran the
task again when its timer fell due: the pause later, unless the timer range ended first. -/
structure Slept (cache : Nat) (R : String) (m p : Nat) (dl : Option Nat) (g : Host) (c : Nat) :
    Prop where
  refused : ∃ g₁ n, (onCache cache ((periodAt p g).count R g.instant)).Run g (.ok n) g₁ ∧
    (m : Int) < n
  room : ∀ d, dl = some d → g.kernel.clock + pause p g ≤ d
  clock_eq : c = max g.kernel.clock (min (g.kernel.clock + pause p g) timerCap)

section Slept

variable {cache : Nat} {R : String} {m p : Nat} {dl : Option Nat} {g : Host} {c : Nat}

theorem Slept.inWindow {s : Nat} (hs : Slept cache R m p dl g c)
    (hin : InWindow s dl g.kernel.clock) : InWindow s dl c := by
  obtain ⟨hsg, hdg, hcap⟩ := hin
  have hc := hs.clock_eq
  refine ⟨by omega, fun d hd => ?_, by omega⟩
  have hroom := hs.room d hd
  omega

/-- Inside the timer range the sleep lasts exactly the pause. -/
theorem Slept.clock_exact (hs : Slept cache R m p dl g c)
    (hcap : g.kernel.clock + pause p g ≤ timerCap) : c = g.kernel.clock + pause p g := by
  have hc := hs.clock_eq
  omega

/-- Inside the timer range the next turn starts a millisecond past the period's end, on the
wall clock counted from the same start, and so in a later period. -/
theorem Slept.next_period (hs : Slept cache R m p dl g c) (hp : 0 < p)
    (hcap : g.kernel.clock + pause p g ≤ timerCap) :
    ((g.startMs + c : Nat) : Int) = (periodAt p g).endMs + 1 ∧
      (periodAt p g).endMs ≤ (Bucket.containing ((g.startMs + c : Nat) : Int) p).startMs := by
  have hwall : ((g.startMs + c : Nat) : Int) = (periodAt p g).endMs + 1 := by
    rw [hs.clock_exact hcap]
    exact wall_after_pause hp
  refine ⟨hwall, ?_⟩
  rw [hwall]
  exact containing_after_end hp _

end Slept

/-! ## The turns of one acquire -/

section Window

variable {s : Nat} {T : Duration}

theorem lastTickOf_start : InWindow s (lastTickOf s T) s := by
  refine ⟨Nat.le_refl s, fun d hd => ?_, Nat.le_max_left _ _⟩
  unfold lastTickOf at hd
  split at hd
  · cases hd
    exact Nat.le_add_right _ _
  · cases hd

/-- The time waited up to a turn in the window is at most the time to try: up to the last
reading before the deadline when there is one, and otherwise below the end of the timer range,
far short of a time to try too long to mark. -/
theorem timeWaited_le_of_lastTick {c : Nat} (hin : InWindow s (lastTickOf s T) c) :
    (Duration.ofMillis (c - s)).nanos ≤ T.nanos := by
  obtain ⟨hs, hd, hcap⟩ := hin
  have hmilli : T.millis * Duration.nanosPerMilli ≤ T.nanos := Nat.div_mul_le_self _ _
  simp only [Duration.ofMillis]
  unfold lastTickOf at hd
  split at hd
  · have hc := hd _ rfl
    calc (c - s) * Duration.nanosPerMilli ≤ T.millis * Duration.nanosPerMilli :=
          Nat.mul_le_mul_right _ (by omega)
      _ ≤ T.nanos := hmilli
  · -- no deadline: the clock stays below the end of the timer range
    rename_i hT
    have hcap' : timerCap = 68719476734 := rfl
    have hunb : unboundedSecs = 4611686018427387904 := rfl
    simp only [Duration.secs, Duration.nanosPerSec] at hT
    simp only [Duration.nanosPerMilli]
    omega

end Window

/-- How the turn from `g` ended an acquire with `r` in `h'`, by the count it took in `g`'s
period: a counter fault fails it; a count within the limit grants a lock until the period's
end; a count past it with no room for the pause before the deadline gives up. -/
inductive TurnEnd (cache : Nat) (R : String) (m p started : Nat) (dl : Option Nat) (g : Host) :
    Except LockError (Option Grant) → Host → Prop
  | fault {f g₁} : (onCache cache ((periodAt p g).count R g.instant)).Run g (.error f) g₁ →
      TurnEnd cache R m p started dl g (.error (counterError ((periodAt p g).key R) f)) g₁
  | grant {n g₁} : (onCache cache ((periodAt p g).count R g.instant)).Run g (.ok n) g₁ →
      n ≤ m → TurnEnd cache R m p started dl g
        (.ok (some ⟨R, Uuid.ofCounter (g₁.uuids + 1), g₁.instant, (periodAt p g).endStamp,
          Duration.ofMillis (g₁.kernel.clock - started), 0⟩)) { g₁ with uuids := g₁.uuids + 1 }
  | giveUp {n g₁ d} : (onCache cache ((periodAt p g).count R g.instant)).Run g (.ok n) g₁ →
      (m : Int) < n → dl = some d → d < g.kernel.clock + pause p g →
      TurnEnd cache R m p started dl g (.ok none) g₁

section TurnEnd

variable {cache : Nat} {R : String} {m p s : Nat} {dl : Option Nat} {g : Host}
  {r : Except LockError (Option Grant)}

theorem TurnEnd.not_invalid {msg : String} (he : TurnEnd cache R m p s dl g r h') :
    r ≠ .error (.invalidOptions msg) := by
  cases he with
  | @fault f _ _ => cases f <;> simp [counterError]
  | grant => simp
  | giveUp => simp

/-- A lock from a turn in the window waited at most the time to try. -/
theorem TurnEnd.timeWaited_le {T : Duration} {l : Grant}
    (he : TurnEnd cache R m p s (lastTickOf s T) g (.ok (some l)) h')
    (hin : InWindow s (lastTickOf s T) g.kernel.clock) : l.timeWaited.nanos ≤ T.nanos := by
  cases he with
  | grant hrun hle =>
    rw [(run_onCache_kernel hrun).1]
    exact timeWaited_le_of_lastTick hin

/-- Nothing is returned only at a turn whose period ends, plus a millisecond, after the
deadline, on the wall clock counted from the turn's start. -/
theorem TurnEnd.late_of_none (he : TurnEnd cache R m p s dl g (.ok none) h') (hp : 0 < p) :
    ∃ d, dl = some d ∧ ((g.startMs + d : Nat) : Int) < (periodAt p g).endMs + 1 := by
  cases he with
  | giveUp hrun hlt hd hlate =>
    refine ⟨_, hd, ?_⟩
    rw [← wall_after_pause hp]
    omega

end TurnEnd

section Loop

variable {cache : Nat} {R : String} {m p started : Nat} {dl : Option Nat}

theorem slept_of_timed {n : Int} {g₁ h₂ : Host}
    (hrun : (onCache cache ((periodAt p g).count R g.instant)).Run g (.ok n) g₁)
    (hlt : (m : Int) < n) (hroom : ∀ d, dl = some d → g.kernel.clock + pause p g ≤ d)
    (hs : (sleep (pause p g) : Act Unit).Timed g₁ () h₂) :
    Slept cache R m p dl g h₂.kernel.clock where
  refused := ⟨g₁, n, hrun, hlt⟩
  room := hroom
  clock_eq := by
    rw [timed_sleep_clock hs, (run_onCache_kernel hrun).1]

theorem slept_of_wakes {n : Int} {g₁ : Host}
    (hrun : (onCache cache ((periodAt p g).count R g.instant)).Run g (.ok n) g₁)
    (hlt : (m : Int) < n) (hroom : ∀ d, dl = some d → g.kernel.clock + pause p g ≤ d)
    (hs : (sleep (pause p g) : Act Unit).Wakes g₁ u) :
    Slept cache R m p dl g u.kernel.clock where
  refused := ⟨g₁, n, hrun, hlt⟩
  room := hroom
  clock_eq := by
    rw [wakes_sleep_clock hs, (run_onCache_kernel hrun).1]

/-- Every timed run of the turns, from a turn in the window, ends with a turn in the window,
as `TurnEnd` says. The induction is on the turns left; a refused turn sleeps and hands the
next one a clock still in the window. -/
theorem pollThrottle_timed {fuel : Nat} {r : Except LockError (Option Grant)}
    (hin : InWindow started dl h.kernel.clock)
    (hr : (pollThrottle cache R m p started dl fuel).run.Timed h r h') :
    ∃ g, InWindow started dl g.kernel.clock ∧ TurnEnd cache R m p started dl g r h' := by
  induction fuel generalizing h with
  | zero => simp [pollThrottle, onHost] at hr
  | succ fuel ih =>
    obtain ⟨a, h₁, hrun, hturn⟩ := @pollThrottle_reaches h cache R m p started fuel dl
    rcases hturn with ⟨f, rfl, hre⟩ | ⟨n, rfl, hle, hre⟩ | ⟨n, rfl, hlt, ⟨d, hd, hlate⟩, hre⟩ |
      ⟨n, rfl, hlt, hroom, hre⟩
    · obtain ⟨rfl, rfl⟩ := timed_done.1 (hre.timed.1 hr)
      exact ⟨h, hin, .fault hrun⟩
    · obtain ⟨rfl, rfl⟩ := timed_done.1 (hre.timed.1 hr)
      exact ⟨h, hin, .grant hrun hle⟩
    · obtain ⟨rfl, rfl⟩ := timed_done.1 (hre.timed.1 hr)
      exact ⟨h, hin, .giveUp hrun hlt hd hlate⟩
    · obtain ⟨_, h₂, hs, hrest⟩ := timed_onHost_bind.1 (hre.timed.1 hr)
      exact ih ((slept_of_timed hrun hlt hroom hs).inWindow hin) hrest

/-- The turns are run again only after a refused turn in the window slept, as `Slept` says. -/
theorem pollThrottle_wakes {fuel : Nat} (hin : InWindow started dl h.kernel.clock)
    (hr : (pollThrottle cache R m p started dl fuel).run.Wakes h u) :
    ∃ g, InWindow started dl g.kernel.clock ∧ Slept cache R m p dl g u.kernel.clock := by
  induction fuel generalizing h with
  | zero => simp [pollThrottle, onHost] at hr
  | succ fuel ih =>
    obtain ⟨a, h₁, hrun, hturn⟩ := @pollThrottle_reaches h cache R m p started fuel dl
    rcases hturn with ⟨f, rfl, hre⟩ | ⟨n, rfl, hle, hre⟩ | ⟨n, rfl, hlt, -, hre⟩ |
      ⟨n, rfl, hlt, hroom, hre⟩
    · exact absurd (hre.wakes.1 hr) wakes_done
    · exact absurd (hre.wakes.1 hr) wakes_done
    · exact absurd (hre.wakes.1 hr) wakes_done
    · rcases wakes_onHost_bind.1 (hre.wakes.1 hr) with hs | ⟨_, h₂, hs, hrest⟩
      · exact ⟨h, hin, slept_of_wakes hrun hlt hroom hs⟩
      · exact ih ((slept_of_timed hrun hlt hroom hs).inWindow hin) hrest

/-- With a deadline inside the timer range and more turns left than milliseconds to it, the
turns end. The induction is on the turns left: a refused turn that sleeps has room for its
pause before the deadline, so the clock moves on by the pause, at least a millisecond. -/
theorem pollThrottle_ends {fuel d : Nat} (hd : dl = some d) (hcap : d ≤ timerCap)
    (hle : h.kernel.clock ≤ d) (hfuel : d < h.kernel.clock + fuel) :
    (pollThrottle cache R m p started dl fuel).run.Ends h := by
  induction fuel generalizing h with
  | zero => omega
  | succ fuel ih =>
    obtain ⟨a, h₁, hrun, hturn⟩ := @pollThrottle_reaches h cache R m p started fuel dl
    rcases hturn with ⟨f, -, hre⟩ | ⟨n, -, -, hre⟩ | ⟨n, -, -, -, hre⟩ | ⟨n, rfl, hlt, hroom, hre⟩
    · exact hre.ends .done
    · exact hre.ends .done
    · exact hre.ends .done
    · refine hre.ends (ends_onHost_bind ends_sleep fun _ h₂ hs => ?_)
      have hc := (slept_of_timed hrun hlt hroom hs).clock_eq
      have hr := hroom d hd
      have hpos := pause_pos p h
      exact ih (by omega) (by omega)

end Loop

/-! ## The acquire -/

section Acquire

variable {cache : Nat} {R : String} {T : Duration} {m : Nat} {period : Duration}

theorem periodMillis_of_valid (hv : 0 < period.millis ∧ period.millis < Nat.pow 2 63) :
    ThrottleOptions.periodMillis ⟨m, period⟩ = .ok period.millis := by
  simp [ThrottleOptions.periodMillis, hv.1, hv.2]

theorem periodMillis_of_invalid (hv : ¬ (0 < period.millis ∧ period.millis < Nat.pow 2 63)) :
    ThrottleOptions.periodMillis ⟨m, period⟩ =
      .error (.invalidOptions ("throttle period must be at least 1ms, got " ++ period.text)) := by
  simp only [ThrottleOptions.periodMillis, Bool.and_eq_true, decide_eq_true_eq]
  rw [if_neg hv]

theorem throttleWith_refused {e : LockError}
    (he : ThrottleOptions.periodMillis ⟨m, period⟩ = .error e) :
    (throttleWith cache R T m period).run = .done (.error e) := by
  simp only [throttleWith, ExceptT.run_bind, ExceptT.run_mk, he]
  rfl

theorem throttleWith_reaches {p : Nat} (hp : ThrottleOptions.periodMillis ⟨m, period⟩ = .ok p) :
    Reaches (throttleWith cache R T m period).run h
      (pollThrottle cache R m p h.kernel.clock (lastTickOf h.kernel.clock T) forever).run h := by
  simp only [throttleWith, ExceptT.run_bind, ExceptT.run_mk, hp]
  exact reaches_onHost_bind atomic_clock (run_clock.2 ⟨rfl, rfl⟩)

theorem timerCap_lt_forever : timerCap < forever := by decide

theorem throttleWith_timed {r : Except LockError (Option Grant)}
    (hr : (throttleWith cache R T m period).run.Timed h r h') :
    ((period.millis = 0 ∨ Nat.pow 2 63 ≤ period.millis) ∧
        r = .error (.invalidOptions ("throttle period must be at least 1ms, got " ++ period.text)) ∧
        h' = h) ∨
      (0 < period.millis ∧ period.millis < Nat.pow 2 63 ∧
        ∃ g, InWindow h.kernel.clock (lastTickOf h.kernel.clock T) g.kernel.clock ∧
          TurnEnd cache R m period.millis h.kernel.clock (lastTickOf h.kernel.clock T) g r h') := by
  by_cases hv : 0 < period.millis ∧ period.millis < Nat.pow 2 63
  · have hre := (throttleWith_reaches (periodMillis_of_valid hv)).timed.1 hr
    exact Or.inr ⟨hv.1, hv.2, pollThrottle_timed lastTickOf_start hre⟩
  · rw [throttleWith_refused (periodMillis_of_invalid hv), timed_done] at hr
    exact Or.inl ⟨by omega, hr⟩

theorem throttleWith_wakes (hr : (throttleWith cache R T m period).run.Wakes h u) :
    0 < period.millis ∧ ∃ g, InWindow h.kernel.clock (lastTickOf h.kernel.clock T) g.kernel.clock ∧
      Slept cache R m period.millis (lastTickOf h.kernel.clock T) g u.kernel.clock := by
  by_cases hv : 0 < period.millis ∧ period.millis < Nat.pow 2 63
  · have hre := (throttleWith_reaches (periodMillis_of_valid hv)).wakes.1 hr
    exact ⟨hv.1, pollThrottle_wakes lastTickOf_start hre⟩
  · rw [throttleWith_refused (periodMillis_of_invalid hv)] at hr
    exact absurd hr wakes_done

end Acquire

/-- What a throttled acquire `q` for `R`, started in `h` with time to try `T`, at most `m`
grants a period of `period`, does over time. The turns' window runs from the start
`h.kernel.clock` to the deadline `lastTickOf h.kernel.clock T`. -/
structure ThrottleTiming (cache : Nat) (R : String) (T : Duration) (m : Nat) (period : Duration)
    (h : Host) (q : LockM (Option Grant)) : Prop where
  /-- A period of no whole millisecond, or of more than the largest 64-bit count of them, is
  refused at once: that refusal is the acquire's one outcome, and the host is as it was. -/
  rejects : period.millis = 0 ∨ Nat.pow 2 63 ≤ period.millis → ∀ r h',
    q.run.Timed h r h' ↔
      r = .error (.invalidOptions ("throttle period must be at least 1ms, got " ++ period.text)) ∧
        h' = h
  /-- No other period is refused so. -/
  only_invalid : ∀ msg h', q.run.Timed h (.error (.invalidOptions msg)) h' →
    period.millis = 0 ∨ Nat.pow 2 63 ≤ period.millis
  /-- With any other period the acquire ends at a turn `g` in the window, as `TurnEnd` says:
  the turn counted in `g`'s period and granted exactly when the count was within the limit,
  with a lease to the period's end. -/
  ends : 0 < period.millis → period.millis < Nat.pow 2 63 → ∀ r h', q.run.Timed h r h' →
    ∃ g, InWindow h.kernel.clock (lastTickOf h.kernel.clock T) g.kernel.clock ∧
      TurnEnd cache R m period.millis h.kernel.clock (lastTickOf h.kernel.clock T) g r h'
  /-- A lock waited at most the time to try. -/
  waited : ∀ l h', q.run.Timed h (.ok (some l)) h' → l.timeWaited.nanos ≤ T.nanos
  /-- Nothing is returned only at a turn `g` whose period ends, plus a millisecond, after the
  deadline on the wall clock. -/
  late : ∀ h', q.run.Timed h (.ok none) h' → ∃ (g : Host) (d : Nat),
    InWindow h.kernel.clock (lastTickOf h.kernel.clock T) g.kernel.clock ∧
      lastTickOf h.kernel.clock T = some d ∧
      ((g.startMs + d : Nat) : Int) < (Bucket.containing g.instant.millis period.millis).endMs + 1
  /-- The task is run again only after a refused turn `g` in the window slept. Inside the
  timer range it slept to a millisecond past its period's end on the wall clock, so the next
  turn counts in a later period. -/
  sleeps : ∀ u, q.run.Wakes h u → ∃ g,
    InWindow h.kernel.clock (lastTickOf h.kernel.clock T) g.kernel.clock ∧
      Slept cache R m period.millis (lastTickOf h.kernel.clock T) g u.kernel.clock ∧
      (g.kernel.clock + pause period.millis g ≤ timerCap →
        ((g.startMs + u.kernel.clock : Nat) : Int) =
            (Bucket.containing g.instant.millis period.millis).endMs + 1 ∧
          (Bucket.containing g.instant.millis period.millis).endMs ≤
            (Bucket.containing ((g.startMs + u.kernel.clock : Nat) : Int) period.millis).startMs)
  /-- With a deadline inside the timer range, the acquire ends. -/
  terminates : (∃ d, lastTickOf h.kernel.clock T = some d ∧ d ≤ timerCap) → q.run.Ends h

section Acquire

variable {cache : Nat} {R : String} {T : Duration} {m : Nat} {period : Duration}

end Acquire

end Backplane.Lock
