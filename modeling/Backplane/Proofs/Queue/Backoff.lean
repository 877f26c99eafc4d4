import Mathlib
import Backplane.Queue.Options
import Backplane.Cache.Store

/-!
# Retry backoff

An entry handed back after `a` deliveries is offered again after `Options.retryDelayFor a`:
no delay without a retry delay, else the retry delay doubled for each delivery after the
first, at most 31 times, the product stopping at the longest duration, and cut to the
ceiling. It is offered again that long after the hand-back, or at the last instant of the
calendar when the delay reaches past it (`Stamp.addOrMax`, as `Store.release` uses it).

Everything is stated on nanoseconds, through the exact arithmetic the saturating operations
stop: `Duration.saturatingMul_nanos` and `Stamp.addOrMax_nanos` are the two equations the
rest is read from. The instants of the calendar span about half a million years, far less
than the longest span the calendar's arithmetic takes (`i64::MAX` milliseconds), so a span
it cannot take lands on the last instant as well (`Stamp.addOrMax_past_calendar`).

The main statement is `Options.retry_backoff`.
-/

namespace Backplane

namespace Duration

@[simp] theorem min_nanos (a b : Duration) :
    (Duration.min a b).nanos = Min.min a.nanos b.nanos := by
  unfold Duration.min
  split <;> omega

@[simp] theorem saturatingMul_nanos (a : Duration) (k : Nat) :
    (a.saturatingMul k).nanos = Min.min (a.nanos * k) max.nanos := rfl

@[simp] theorem isZero_iff (d : Duration) : d.isZero = true ↔ d.nanos = 0 := by
  simp [isZero]

end Duration

namespace Stamp

variable {t : Stamp} {d e : Duration}

/-- A duration later is exact as long as the calendar reaches; past it, the last instant. -/
theorem addOrMax_nanos (t : Stamp) (d : Duration) :
    (t.addOrMax d).nanos =
      if t.nanos + d.nanos ≤ maxUtc.nanos then t.nanos + d.nanos else maxUtc.nanos := by
  unfold addOrMax addDuration?
  dsimp only
  split <;> rfl

theorem addOrMax_le_maxUtc (t : Stamp) (d : Duration) : (t.addOrMax d).nanos ≤ maxUtc.nanos := by
  rw [addOrMax_nanos]
  split <;> omega

theorem le_addOrMax (ht : t.nanos ≤ maxUtc.nanos) : t ≤ t.addOrMax d := by
  show t.nanos ≤ (t.addOrMax d).nanos
  rw [addOrMax_nanos]
  split <;> omega

theorem addOrMax_mono (h : d.nanos ≤ e.nanos) : t.addOrMax d ≤ t.addOrMax e := by
  show (t.addOrMax d).nanos ≤ (t.addOrMax e).nanos
  rw [addOrMax_nanos, addOrMax_nanos]
  split <;> split <;> omega

theorem inRange_iff : t.inRange = true ↔ minUtc.nanos ≤ t.nanos ∧ t.nanos ≤ maxUtc.nanos := by
  simp [inRange]

theorem inRange_addOrMax (ht : t.inRange = true) : (t.addOrMax d).inRange = true := by
  obtain ⟨hmin, hmax⟩ := inRange_iff.1 ht
  have hle : t.nanos ≤ (t.addOrMax d).nanos := le_addOrMax hmax
  exact inRange_iff.2 ⟨Int.le_trans hmin hle, addOrMax_le_maxUtc t d⟩

/-- A span longer than the whole calendar lands on its last instant, from any instant of it. -/
theorem addOrMax_past_calendar (hmin : minUtc.nanos ≤ t.nanos)
    (hd : maxUtc.nanos - minUtc.nanos < d.nanos) : t.addOrMax d = maxUtc := by
  unfold addOrMax addDuration?
  dsimp only
  rw [if_neg (by omega)]
  rfl

theorem calendar_lt_spanLimit :
    maxUtc.nanos - minUtc.nanos < Cache.Store.i64Max * 1000000 := by
  decide

end Stamp

namespace Queue.Options

variable (o : Options)

/-- The delay after `a` deliveries, in nanoseconds: none without a retry delay, else the retry
delay times `2 ^ min (max a 1 - 1) 31`, stopped at the longest duration and cut to the
ceiling. -/
theorem retryDelayFor_nanos (a : Nat) :
    (o.retryDelayFor a).nanos =
      if o.retryDelay.nanos = 0 then 0
      else min (min (o.retryDelay.nanos * 2 ^ min (max a 1 - 1) 31) Duration.max.nanos)
        o.maxRetryDelay.nanos := by
  unfold retryDelayFor
  by_cases hz : o.retryDelay.nanos = 0
  · simp [hz, Duration.zero]
  · -- a first delivery and none at all both count as the first
    have hfirst : max a 1 - 1 = a - 1 := by omega
    simp [hz, hfirst, Nat.pow_eq]

theorem retryDelayFor_le_ceiling (a : Nat) :
    (o.retryDelayFor a).nanos ≤ o.maxRetryDelay.nanos := by
  rw [retryDelayFor_nanos]
  split
  · exact Nat.zero_le _
  · exact Nat.min_le_right _ _

theorem retryDelayFor_mono {a b : Nat} (h : a ≤ b) :
    (o.retryDelayFor a).nanos ≤ (o.retryDelayFor b).nanos := by
  rw [retryDelayFor_nanos, retryDelayFor_nanos]
  split
  · exact Nat.le_refl 0
  · -- the exponent grows with the deliveries, and every step after it is monotone
    have hexp : min (max a 1 - 1) 31 ≤ min (max b 1 - 1) 31 := by omega
    have hpow : 2 ^ min (max a 1 - 1) 31 ≤ 2 ^ min (max b 1 - 1) 31 :=
      Nat.pow_le_pow_right (by omega) hexp
    have hmul := Nat.mul_le_mul_left o.retryDelay.nanos hpow
    omega

/-- Retry backoff. The delay after `a` deliveries is zero without a retry delay, and otherwise
the retry delay times `2 ^ min (max a 1 - 1) 31`, stopped at the longest duration and cut to
the ceiling; it never exceeds the ceiling and grows with the deliveries. The instant of the
next offer, that delay after the hand-back at an instant of the calendar, is no earlier than
the hand-back, in the calendar, and grows with the deliveries; it is the exact sum as long as
the calendar reaches and its last instant past that, in particular for every span longer than
the calendar's arithmetic takes. -/
theorem retry_backoff :
    (∀ a, (o.retryDelayFor a).nanos =
      if o.retryDelay.nanos = 0 then 0
      else min (min (o.retryDelay.nanos * 2 ^ min (max a 1 - 1) 31) Duration.max.nanos)
        o.maxRetryDelay.nanos) ∧
    (∀ a, 0 < o.retryDelay.nanos → (o.retryDelayFor a).nanos ≤ o.maxRetryDelay.nanos) ∧
    (∀ a b, a ≤ b → (o.retryDelayFor a).nanos ≤ (o.retryDelayFor b).nanos) ∧
    (∀ (now : Stamp) a, now.inRange = true →
      now ≤ now.addOrMax (o.retryDelayFor a) ∧ (now.addOrMax (o.retryDelayFor a)).inRange = true) ∧
    (∀ (now : Stamp) a b, a ≤ b →
      now.addOrMax (o.retryDelayFor a) ≤ now.addOrMax (o.retryDelayFor b)) ∧
    (∀ (now : Stamp) a, (now.addOrMax (o.retryDelayFor a)).nanos =
      if now.nanos + (o.retryDelayFor a).nanos ≤ Stamp.maxUtc.nanos
      then now.nanos + (o.retryDelayFor a).nanos else Stamp.maxUtc.nanos) ∧
    (∀ (now : Stamp) a, now.inRange = true →
      Cache.Store.i64Max * 1000000 < (o.retryDelayFor a).nanos →
      now.addOrMax (o.retryDelayFor a) = Stamp.maxUtc) := by
  refine ⟨o.retryDelayFor_nanos, fun a _ => o.retryDelayFor_le_ceiling a,
    fun a b h => o.retryDelayFor_mono h, fun now a hn => ?_,
    fun now a b h => Stamp.addOrMax_mono (o.retryDelayFor_mono h),
    fun now a => Stamp.addOrMax_nanos now _, fun now a hn hd => ?_⟩
  · exact ⟨Stamp.le_addOrMax (Stamp.inRange_iff.1 hn).2, Stamp.inRange_addOrMax hn⟩
  · have hspan := Stamp.calendar_lt_spanLimit
    exact Stamp.addOrMax_past_calendar (Stamp.inRange_iff.1 hn).1 (by omega)

/-- Backoff from a second, doubled up to ten seconds. -/
def secondBackoff : Options :=
  { Options.default with retryDelay := Duration.ofSecs 1, maxRetryDelay := Duration.ofSecs 10 }

/-- From a second up to ten: the third delivery waits four seconds, the fifth is cut to ten,
and from the epoch the next offer comes no earlier. -/
theorem retry_backoff_doubling :
    secondBackoff.retryDelayFor 3 = Duration.ofSecs 4 ∧
      secondBackoff.retryDelayFor 5 = Duration.ofSecs 10 ∧
      (secondBackoff.retryDelayFor 3).nanos ≤ (secondBackoff.retryDelayFor 5).nanos ∧
      Stamp.ofMillis 0 ≤ (Stamp.ofMillis 0).addOrMax (secondBackoff.retryDelayFor 3) := by
  have hin : (Stamp.ofMillis 0).inRange = true := by decide
  exact ⟨by decide, by decide, (retry_backoff secondBackoff).2.2.1 3 5 (by decide),
    ((retry_backoff secondBackoff).2.2.2.1 _ 3 hin).1⟩

end Queue.Options

end Backplane
