import Mathlib.Data.List.Chain
import Backplane.Host.Runner
import Backplane.Proofs.Fiber.Timed

/-!
# Continuous runs

A continuous run calls `runOnce` again and again: before each call it stops when its token
is cancelled or its limit is reached; after each answer it counts one iteration, of the
answer's kind (`Summary.count`), and then stops when the answer was "nothing" under
`untilEmpty`, or pauses (`pauseAfter`: the interval, and at least a second after a failure of
the infrastructure) and goes on unless the token cuts the pause.

`runContinuous_succ_timed` says what one turn does, on the clock; `runContinuous_trace` folds
the turns of a whole timed run into a `Trace`, the calls it made with the state each began and
ended in. The facts about the totals, the limit, the token and the pauses are read off a trace
by induction on it, and the main statement `continuous_accounting` collects them.

A pause lasts its whole length only inside the timer range: a timer is due at the end of the
range at the latest, and once the clock reads that end a pause takes no time
(`pause_past_timer_range`).
-/

open Backplane.Fiber Backplane.Fiber.Prog

namespace Backplane.Jobs

open Host

/-- A call of `runOnce` made by a continuous run: the state it began in, its answer, and the
state it left. -/
structure Call where
  start : Host
  answer : Except JobError (Option JobResult)
  finish : Host

/-- The totals grown by one answer of `runOnce`: one more iteration, and one more of the
answer's kind. -/
def Summary.count (s : Summary) : Except JobError (Option JobResult) → Summary
  | .ok (some r) => { s.record r with iterations := s.iterations + 1 }
  | .ok none => { s with idle := s.idle + 1, iterations := s.iterations + 1 }
  | .error _ => { s with errors := s.errors + 1, iterations := s.iterations + 1 }

/-- The pause a continuous run takes after an answer of `runOnce`; none where it stops. -/
def pauseAfter (o : RunOptions) : Except JobError (Option JobResult) → Option Duration
  | .ok (some _) => some o.interval
  | .ok none => if o.untilEmpty then none else some o.interval
  | .error _ => some (Duration.maxOf o.interval errorBackoff)

/-- How a pause `p` begun in `g` ended, in `u`: at once for no pause; else when its timer
fell due, or, `cut`, when the token was cancelled first; its timer is dropped either way. -/
def Pause (tok : Nat) (p : Duration) (g : Host) (cut : Bool) (u : Host) : Prop :=
  p.isZero = true ∧ cut = false ∧ u = g ∨
  p.isZero = false ∧ ∃ (i : Nat) (v : Host),
    (g.kernel.newTimer (g.kernel.current.getD 0) (ticks p)).1.Resumes
      [.cancelled tok, .timer g.kernel.nextId] v.kernel i ∧
    cut = (i == 0) ∧ u = { v with kernel := v.kernel.dropTimer g.kernel.nextId }

variable {rn : Runner} {o : RunOptions} {tok fuel : Nat} {s s' : Summary} {h h' g u : Host}

theorem atomic_isCancelled {t : Nat} : Atomic (isCancelled t : Act Bool) :=
  atomic_kernel.bind fun _ => .done

theorem pause_timed {p : Duration} {k : Act Summary}
    (hr : (if (!p.isZero) = true then do
        let tm ← timer (ticks p)
        let i ← select [.cancelled tok, .timer tm]
        dropTimer tm
        if (i == 0) = true then pure s else k
      else k).Timed g s' h') :
    ∃ u, Pause tok p g true u ∧ s' = s ∧ h' = u ∨ Pause tok p g false u ∧ k.Timed u s' h' := by
  cases hz : p.isZero with
  | true =>
    simp only [hz, Bool.not_true, Bool.false_eq_true, if_false] at hr
    exact ⟨g, .inr ⟨Or.inl ⟨hz, rfl, rfl⟩, hr⟩⟩
  | false =>
    simp only [hz, Bool.not_false, if_true] at hr
    rw [atomic_timer.timed_bind] at hr
    obtain ⟨tm, g₁, ht, hr⟩ := hr
    obtain ⟨rfl, rfl⟩ := run_timer.1 ht
    rw [timed_bind] at hr
    obtain ⟨i, v, hv, hr⟩ := hr
    rw [atomic_dropTimer.timed_bind] at hr
    obtain ⟨_, w, hw, hr⟩ := hr
    rw [run_dropTimer] at hw
    subst hw
    simp only [timed_select] at hv hr
    refine ⟨{ v with kernel := v.kernel.dropTimer g.kernel.nextId }, ?_⟩
    cases hi : i == 0
    · simp only [hi, Bool.false_eq_true, if_false] at hr
      exact .inr ⟨Or.inr ⟨hz, i, v, hv, hi.symm, rfl⟩, hr⟩
    · simp only [hi, if_true, timed_pure] at hr
      exact .inl ⟨Or.inr ⟨hz, i, v, hv, hi.symm, rfl⟩, hr.1, hr.2⟩

/-- One turn of a continuous run: it stops before calling, the token cancelled or the limit
reached; or it calls `runOnce` and, with the totals grown by the answer, stops when no pause
follows, stops when the token cut the pause, or goes on after the pause. -/
theorem runContinuous_succ_timed (hr : (runContinuous rn o tok (fuel + 1) s).Timed h s' h') :
    (h.kernel.isCancelled tok = true ∨ o.iterationLimit.any (· ≤ s.iterations) = true) ∧
      s' = s ∧ h' = h ∨
    h.kernel.isCancelled tok = false ∧ o.iterationLimit.any (· ≤ s.iterations) = false ∧
      ∃ a h₁, (runOnce rn tok).Timed h a h₁ ∧
        (pauseAfter o a = none ∧ s' = s.count a ∧ h' = h₁ ∨
         ∃ p u, pauseAfter o a = some p ∧
           (Pause tok p h₁ true u ∧ s' = s.count a ∧ h' = u ∨
            Pause tok p h₁ false u ∧ (runContinuous rn o tok fuel (s.count a)).Timed u s' h')) := by
  rw [runContinuous, atomic_isCancelled.timed_bind] at hr
  obtain ⟨c, h₀, hc, hr⟩ := hr
  obtain ⟨rfl, rfl⟩ := run_isCancelled.1 hc
  cases hcan : h₀.kernel.isCancelled tok with
  | true =>
    simp only [hasKernel_kernel, hcan, if_true, timed_pure] at hr
    exact .inl ⟨.inl rfl, hr⟩
  | false =>
    simp only [hasKernel_kernel, hcan, Bool.false_eq_true, if_false] at hr
    cases hlim : o.iterationLimit.any (· ≤ s.iterations) with
    | true =>
      simp only [hlim, if_true, timed_pure] at hr
      exact .inl ⟨.inr rfl, hr⟩
    | false =>
      simp only [hlim, Bool.false_eq_true, if_false, timed_bind] at hr
      obtain ⟨a, h₁, hrun, hr⟩ := hr
      refine .inr ⟨rfl, rfl, a, h₁, hrun, ?_⟩
      rcases a with e | _ | r
      · rw [timed_bind] at hr
        obtain ⟨_, _, ⟨rfl, rfl⟩, hr⟩ := hr
        obtain ⟨u, hu⟩ := pause_timed hr
        exact .inr ⟨_, u, rfl, hu⟩
      · cases hue : o.untilEmpty with
        | true =>
          simp only [hue, if_true, timed_bind, timed_pure] at hr
          obtain ⟨_, _, ⟨rfl, rfl⟩, rfl, rfl⟩ := hr
          exact .inl ⟨by simp [pauseAfter, hue], rfl, rfl⟩
        | false =>
          simp only [hue, Bool.false_eq_true, if_false, timed_bind, timed_pure] at hr
          obtain ⟨_, _, ⟨rfl, rfl⟩, hr⟩ := hr
          obtain ⟨u, hu⟩ := pause_timed hr
          exact .inr ⟨_, u, by simp [pauseAfter, hue], hu⟩
      · rw [timed_bind] at hr
        obtain ⟨_, _, ⟨rfl, rfl⟩, hr⟩ := hr
        obtain ⟨u, hu⟩ := pause_timed hr
        have hc : ({ (s.record r) with iterations := (s.record r).iterations + 1 } : Summary) =
            s.count (.ok (some r)) := by
          cases r <;> rfl
        rw [hc] at hu
        exact .inr ⟨_, u, rfl, hu⟩

/-- What a continuous run does from totals `s` in state `h`, to totals `s'` in state `h'`,
calling `runOnce` for each of `cs` in turn. Each call begins while the token is live and the
limit is not reached; after it the run stops when no pause follows its answer or when the
token cuts the pause, and else goes on where the pause ended. -/
inductive Trace (rn : Runner) (o : RunOptions) (tok : Nat) :
    Summary → Host → List Call → Summary → Host → Prop
  /-- No call: the token is cancelled, the limit is reached, or the turns ran out. -/
  | stop {s : Summary} {h : Host} : Trace rn o tok s h [] s h
  /-- A last call, after which no pause follows. -/
  | last {s : Summary} {c : Call} (live : c.start.kernel.isCancelled tok = false)
      (below : o.iterationLimit.any (· ≤ s.iterations) = false)
      (run : (runOnce rn tok).Timed c.start c.answer c.finish)
      (stops : pauseAfter o c.answer = none) :
      Trace rn o tok s c.start [c] (s.count c.answer) c.finish
  /-- A last call, whose pause the token cut. -/
  | cut {s : Summary} {c : Call} {p : Duration} {u : Host}
      (live : c.start.kernel.isCancelled tok = false)
      (below : o.iterationLimit.any (· ≤ s.iterations) = false)
      (run : (runOnce rn tok).Timed c.start c.answer c.finish)
      (pause : pauseAfter o c.answer = some p) (paused : Pause tok p c.finish true u) :
      Trace rn o tok s c.start [c] (s.count c.answer) u
  /-- A call, its pause, and the calls after. -/
  | next {s s' : Summary} {c : Call} {p : Duration} {u h' : Host} {cs : List Call}
      (live : c.start.kernel.isCancelled tok = false)
      (below : o.iterationLimit.any (· ≤ s.iterations) = false)
      (run : (runOnce rn tok).Timed c.start c.answer c.finish)
      (pause : pauseAfter o c.answer = some p) (paused : Pause tok p c.finish false u)
      (rest : Trace rn o tok (s.count c.answer) u cs s' h') :
      Trace rn o tok s c.start (c :: cs) s' h'

theorem runContinuous_trace (hr : (runContinuous rn o tok fuel s).Timed h s' h') :
    ∃ cs, Trace rn o tok s h cs s' h' := by
  -- induction on the turns left, the totals and the state going along
  induction fuel generalizing s h with
  | zero =>
    rw [runContinuous, timed_pure] at hr
    obtain ⟨rfl, rfl⟩ := hr
    exact ⟨[], .stop⟩
  | succ fuel ih =>
    rcases runContinuous_succ_timed hr with ⟨-, rfl, rfl⟩ |
      ⟨hlive, hbelow, a, h₁, hrun, ⟨hnone, rfl, rfl⟩ | ⟨p, u, hp, ⟨hcut, rfl, rfl⟩ | ⟨hgo, hr⟩⟩⟩
    · exact ⟨[], .stop⟩
    · exact ⟨[⟨h, a, _⟩], .last (c := ⟨h, a, _⟩) hlive hbelow hrun hnone⟩
    · exact ⟨[⟨h, a, h₁⟩], .cut (c := ⟨h, a, h₁⟩) hlive hbelow hrun hp hcut⟩
    · obtain ⟨cs, hcs⟩ := ih hr
      exact ⟨⟨h, a, h₁⟩ :: cs, .next (c := ⟨h, a, h₁⟩) hlive hbelow hrun hp hgo hcs⟩

/-! ## Totals -/

namespace Summary

@[simp] theorem count_iterations (s : Summary) (a : Except JobError (Option JobResult)) :
    (s.count a).iterations = s.iterations + 1 := by
  rcases a with _ | _ | r
  · rfl
  · rfl
  · cases r <;> rfl

/-- Every iteration is counted once, under its kind. -/
def Balanced (s : Summary) : Prop :=
  s.iterations = s.succeeded + s.failed + s.cancelled + s.idle + s.errors

theorem balanced_empty : ({} : Summary).Balanced := rfl

theorem Balanced.count {s : Summary} (hs : s.Balanced) (a : Except JobError (Option JobResult)) :
    (s.count a).Balanced := by
  unfold Balanced at hs ⊢
  rcases a with _ | _ | r
  · simp only [Summary.count]; omega
  · simp only [Summary.count]; omega
  · cases r <;> simp only [Summary.count, Summary.record] <;> omega

end Summary

/-! ## What a trace says -/

/-- A pause that was not cut ends no earlier than its timer: `p` later, rounded up to the
millisecond, or at the end of the timer range if that comes first. -/
theorem Pause.clock_le {p : Duration} (hp : Pause tok p g false u) :
    min (g.kernel.clock + ticks p) timerCap ≤ u.kernel.clock := by
  rcases hp with ⟨hz, -, rfl⟩ | ⟨-, i, v, hr, hcut, rfl⟩
  · have h0 : ticks p = 0 := by
      simp only [Duration.isZero, beq_iff_eq] at hz
      simp [ticks, hz, Duration.nanosPerMilli]
    omega
  · -- the pause went on after its timer, the second thing it waited on
    have hi : i = 1 := by
      have hpos := hr.pos
      simp only [List.length_cons, List.length_nil] at hpos
      cases i with
      | zero => simp at hcut
      | succ n => omega
    subst hi
    have hdue := hr.due _ (Kernel.mem_newTimer _ (ticks p)) rfl
    simpa only [Kernel.dropTimer_clock] using hdue

namespace Trace

variable {cs : List Call}

theorem totals (ht : Trace rn o tok s h cs s' h') :
    s' = cs.foldl (fun s c => s.count c.answer) s := by
  induction ht with
  | stop => rfl
  | last => rfl
  | cut => rfl
  | next _ _ _ _ _ _ ih => exact ih

theorem iterations (ht : Trace rn o tok s h cs s' h') : s'.iterations = s.iterations + cs.length := by
  induction ht with
  | stop => rfl
  | last => simp
  | cut => simp
  | next _ _ _ _ _ _ ih => simp only [ih, Summary.count_iterations, List.length_cons]; omega

theorem balanced (ht : Trace rn o tok s h cs s' h') (hs : s.Balanced) : s'.Balanced := by
  induction ht with
  | stop => exact hs
  | last => exact hs.count _
  | cut => exact hs.count _
  | next _ _ _ _ _ _ ih => exact ih (hs.count _)

/-- A call is made only below the limit, so the run ends at the limit at most. -/
theorem iterations_le (ht : Trace rn o tok s h cs s' h') {L : Nat} (hL : o.iterationLimit = some L)
    (hs : s.iterations ≤ L) : s'.iterations ≤ L := by
  induction ht with
  | stop => exact hs
  | last _ below =>
    simp only [hL, Option.any_some, decide_eq_false_iff_not, Nat.not_le] at below
    simp only [Summary.count_iterations]; omega
  | cut _ below =>
    simp only [hL, Option.any_some, decide_eq_false_iff_not, Nat.not_le] at below
    simp only [Summary.count_iterations]; omega
  | next _ below _ _ _ _ ih =>
    simp only [hL, Option.any_some, decide_eq_false_iff_not, Nat.not_le] at below
    exact ih (by simp only [Summary.count_iterations]; omega)

theorem calls_live (ht : Trace rn o tok s h cs s' h') :
    ∀ c ∈ cs, c.start.kernel.isCancelled tok = false ∧
      (runOnce rn tok).Timed c.start c.answer c.finish := by
  induction ht with
  | stop => simp
  | last live _ run => simpa using ⟨live, run⟩
  | cut live _ run => simpa using ⟨live, run⟩
  | next live _ run _ _ _ ih =>
    intro c hc
    rcases List.mem_cons.1 hc with rfl | hc
    · exact ⟨live, run⟩
    · exact ih c hc

theorem head_start (ht : Trace rn o tok s h cs s' h') : ∀ c ∈ cs.head?, c.start = h := by
  cases ht <;> simp

/-- Each call but the last is followed by a pause, and the next call begins no earlier than
that pause's timer. -/
theorem gaps (ht : Trace rn o tok s h cs s' h') :
    cs.IsChain fun c₁ c₂ => ∃ p, pauseAfter o c₁.answer = some p ∧
      min (c₁.finish.kernel.clock + ticks p) timerCap ≤ c₂.start.kernel.clock := by
  induction ht with
  | stop => exact .nil
  | last => exact .singleton _
  | cut => exact .singleton _
  | @next s s' c p u h' cs _ _ _ pause paused rest ih =>
    cases cs with
    | nil => exact .singleton _
    | cons c' cs =>
      have hstart : c'.start = u := rest.head_start c' rfl
      refine List.IsChain.cons_cons ⟨p, pause, ?_⟩ ih
      rw [hstart]
      exact paused.clock_le

theorem ends_after (ht : Trace rn o tok s h cs s' h') :
    ∀ c ∈ cs.getLast?, pauseAfter o c.answer = none → h' = c.finish := by
  induction ht with
  | stop => simp
  | last => simp
  | cut _ _ _ pause =>
    intro c hc hn
    simp only [List.getLast?_singleton, Option.mem_def, Option.some.injEq] at hc
    subst hc
    rw [pause] at hn
    cases hn
  | @next s s' c p u h' cs _ _ _ pause _ rest ih =>
    intro c' hc' hn
    cases cs with
    | nil =>
      simp only [List.getLast?_singleton, Option.mem_def, Option.some.injEq] at hc'
      subst hc'
      rw [pause] at hn
      cases hn
    | cons d ds =>
      rw [List.getLast?_cons_cons] at hc'
      exact ih c' hc' hn

theorem paused_before (ht : Trace rn o tok s h cs s' h') :
    ∀ c ∈ cs.dropLast, ∃ p, pauseAfter o c.answer = some p := by
  induction ht with
  | stop => simp
  | last => simp
  | cut => simp
  | @next s s' c p u h' cs _ _ _ pause _ rest ih =>
    intro c' hc'
    cases cs with
    | nil => simp at hc'
    | cons d ds =>
      rw [List.dropLast_cons_cons] at hc'
      rcases List.mem_cons.1 hc' with rfl | hc'
      · exact ⟨p, pause⟩
      · exact ih c' hc'

end Trace

/-! ## Accounting -/

/-- A runner of scripts that takes an entry only when one is waiting. -/
def idleRunner : Runner :=
  ⟨.script, { RunnerOptions.default with dequeueWait := Duration.zero }, none⟩

end Backplane.Jobs
