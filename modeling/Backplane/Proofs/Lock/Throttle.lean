import Mathlib.Logic.Relation
import Backplane.Proofs.Lock.Periods
import Backplane.Proofs.Fiber.Run

/-!
# Throttled grants: the first attempts of each period

Tasks asking a throttling provider for a resource share one unbounded cache. Each attempt runs
alone between two waits: at the wall clock's instant it increments the counter of the period
it falls in, and it is granted, until the period's end, when the count is within the limit.
The clock moves forward; anything else may use the cache, as long as it leaves the throttle's
counters alone, an expired one apart.

`throttle_first_grants` says that in every world reached from an empty cache, the attempts of
each period are counted 1, 2, 3, … in the order they were made (past the largest 64-bit count
an attempt fails and counts nothing), so the attempts granted are the first `min m n` of the
`n` counted; each attempt changes the one counter of its period; one turn of the provider's
loop is one such attempt; and renewing or releasing a throttled lock hands nothing back.

The cache must be unbounded: one that keeps a bounded number of items evicts a period's counter
to make room for any other key, and the period counts from one again
(`bounded_cache_breaks_budget`).
-/

namespace Backplane.Lock

open Backplane.Fiber Prog Host

variable {h h' : Host}

/-! ## One turn of the provider's loop -/

@[simp] theorem run_onHost {α : Type} {x : Act α} {r : Except LockError α} :
    (onHost x).run.Run h r h' ↔ ∃ a, x.Run h a h' ∧ r = .ok a := by
  simp [onHost, ExceptT.run_lift]

theorem run_grant {r token : String} {e : Stamp} {started : Nat} {l : Grant}
    (hl : (grant r token e started).Run h l h') :
    l.resource = r ∧ l.leaseExpiresAt = e ∧ h' = h := by
  simp only [grant, run_bind, run_now, run_clock, run_pure] at hl
  obtain ⟨_, _, ⟨rfl, rfl⟩, _, _, ⟨rfl, rfl⟩, rfl, rfl⟩ := hl
  exact ⟨rfl, rfl, rfl⟩

theorem periodMillis_bounds {o : ThrottleOptions} {p : Nat} (hp : o.periodMillis = .ok p) :
    0 < p ∧ p < Nat.pow 2 63 := by
  unfold ThrottleOptions.periodMillis at hp
  dsimp only at hp
  split at hp
  · rename_i hb
    cases hp
    simp only [Bool.and_eq_true, decide_eq_true_eq] at hb
    exact hb
  · cases hp

/-- One turn of the loop from a host whose cache `cache` is `c`: it counts in the period of the
instant `t` and touches no cache otherwise; it grants within the limit, fails on a counter
fault, and else gives up or takes another turn after a wait. -/
theorem pollThrottle_turn {cache : Nat} {r : String} {m p started : Nat} {dl : Option Nat}
    {fuel : Nat} {c : Cache.Store} {res : Except LockError (Option Grant)}
    (hc : h.caches[cache]? = some c)
    (hr : (pollThrottle cache r m p started dl (fuel + 1)).run.Run h res h') :
    ∃ t b h₁, t = h.instant ∧ b = Bucket.containing t.millis p ∧
      h₁.caches = h.caches.set cache ((b.count r t).run c).2 ∧
      ((∃ n, ((b.count r t).run c).1 = .ok n ∧ n ≤ m ∧
          ∃ l, res = .ok (some l) ∧ l.resource = r ∧ l.leaseExpiresAt = b.endStamp ∧
            h'.caches = h₁.caches) ∨
        (∃ f, ((b.count r t).run c).1 = .error f ∧ res = .error (counterError (b.key r) f) ∧
          h' = h₁) ∨
        (∃ n, ((b.count r t).run c).1 = .ok n ∧ (m : Int) < n ∧
          (res = .ok none ∧ h'.caches = h₁.caches ∨
            (∀ d, dl = some d → h.kernel.clock < d) ∧
              ∃ u, (pollThrottle cache r m p started dl fuel).run.Run u res h'))) := by
  simp only [pollThrottle, ExceptT.run_bind, run_bind, run_onHost] at hr
  obtain ⟨a, s₁, ⟨t, ht, rfl⟩, hr⟩ := hr
  obtain ⟨rfl, rfl⟩ := run_now.1 ht
  simp only [run_bind, run_onHost] at hr
  obtain ⟨a, s₂, ⟨x, hx, rfl⟩, hr⟩ := hr
  obtain ⟨rfl, hs₂⟩ := (run_onCache hc).1 hx
  refine ⟨_, _, s₂, rfl, rfl, by rw [hs₂], ?_⟩
  dsimp only at hr
  generalize s₁.instant = t at hr ⊢
  generalize Bucket.containing t.millis p = b at hr ⊢
  generalize ((b.count r t).run c).1 = cnt at hr ⊢
  clear hx ht
  cases cnt with
  | error f =>
    simp only [ExceptT.run_throw, run_pure] at hr
    exact .inr (.inl ⟨f, rfl, hr.1, hr.2⟩)
  | ok n =>
    dsimp only at hr
    by_cases hn : n ≤ m
    · -- granted: a fresh token, and the lock until the period's end
      rw [if_pos hn] at hr
      simp only [ExceptT.run_bind, run_bind, run_onHost] at hr
      obtain ⟨_, s₃, ⟨tok, htok, rfl⟩, hr⟩ := hr
      simp only [run_bind, run_onHost] at hr
      obtain ⟨_, s₄, ⟨l, hl, rfl⟩, hr⟩ := hr
      simp only [ExceptT.run_pure, run_pure] at hr
      obtain ⟨hlr, hle, rfl⟩ := run_grant hl
      exact .inl ⟨n, rfl, hn, l, hr.1, hlr, hle, by rw [hr.2]; exact run_uuid htok⟩
    · -- refused: give up at the deadline, or wait and take another turn
      rw [if_neg hn] at hr
      refine .inr (.inr ⟨n, rfl, by omega, ?_⟩)
      simp only [ExceptT.run_bind, run_bind, run_onHost] at hr
      obtain ⟨_, s₃, ⟨t', ht', rfl⟩, hr⟩ := hr
      obtain ⟨-, rfl⟩ := run_now.1 ht'
      simp only at hr
      cases dl with
      | none =>
        simp only [ExceptT.run_bind, run_bind, run_onHost] at hr
        obtain ⟨_, s₄, ⟨_, -, rfl⟩, hr⟩ := hr
        exact .inr ⟨fun d hd => (by cases hd), s₄, hr⟩
      | some d =>
        simp only [ExceptT.run_bind, run_bind, run_onHost] at hr
        obtain ⟨_, s₄, ⟨k, hk, rfl⟩, hr⟩ := hr
        obtain ⟨hkc, rfl⟩ := run_clock.1 hk
        simp only at hr
        split at hr
        · have hnone := run_pure (a := (.ok none : Except LockError (Option Grant))) |>.1 hr
          obtain ⟨rfl, rfl⟩ := hnone
          exact .inl ⟨rfl, rfl⟩
        · -- the deadline is past the next period, so it had not come yet
          rename_i hlate
          simp only [ExceptT.run_bind, run_bind, run_onHost] at hr
          obtain ⟨_, s₅, ⟨_, -, rfl⟩, hr⟩ := hr
          refine .inr ⟨?_, s₅, hr⟩
          rintro d' ⟨⟩
          rw [hkc, hs₂] at hlate
          change ¬d < s₁.kernel.clock + _ at hlate
          omega

/-- Renewing a throttled lock touches nothing and keeps the lock: no slot comes back. -/
theorem renew_throttle {store : Nat} {o : ThrottleOptions} {l : Grant} {ext : Duration}
    {res : Except LockError (Bool × Grant)}
    (hr : ((Provider.throttle store o).renew l ext).run.Run h res h') :
    res = .ok (true, l) ∧ h' = h := by
  simp only [Provider.renew, run_onHost, run_bind, run_now, run_pure] at hr
  obtain ⟨_, ⟨_, _, ⟨-, rfl⟩, rfl, rfl⟩, rfl⟩ := hr
  exact ⟨rfl, rfl⟩

theorem release_throttle {store : Nat} {o : ThrottleOptions} {l : Grant}
    {res : Except LockError Bool} (hr : ((Provider.throttle store o).release l).run.Run h res h') :
    res = .ok true ∧ h' = h := by
  simp only [Provider.release, run_onHost, run_pure] at hr
  obtain ⟨_, ⟨rfl, rfl⟩, rfl⟩ := hr
  exact ⟨rfl, rfl⟩

end Backplane.Lock

namespace Backplane.Lock.Throttle

open Cache Cache.Store

/-! ## Attempts of a resource -/

/-- One attempt: the wall clock's millisecond when it counted, the period it counted in, and
what the counter answered. -/
structure Attempt where
  time : Int
  bucket : Bucket
  count : Except CounterFault Int
  deriving Repr, DecidableEq

/-- What an attempt whose counter answered `c` does: it is granted when the count is within
the limit `m`. -/
def grants (m : Nat) : Except CounterFault Int → Bool
  | .ok c => decide (c ≤ m)
  | .error _ => false

/-- An attempt is granted when its count is within the limit `m`. -/
def Attempt.granted (m : Nat) (a : Attempt) : Bool := grants m a.count

/-- The cache the attempts share, the wall clock in milliseconds since the epoch, and the
attempts made so far, in the order they counted. -/
structure World where
  cache : Cache.Store
  clock : Int
  attempts : List Attempt

namespace World

/-- The wall clock as an instant. -/
def now (w : World) : Stamp := Stamp.ofMillis w.clock

/-- An attempt on `r` at the clock's instant, with periods of `p` milliseconds: count it in the
period containing the instant. -/
def attempt (r : String) (p : Nat) (w : World) : World :=
  let b := Bucket.containing w.now.millis p
  let res := (b.count r w.now).run w.cache
  { w with cache := res.2, attempts := w.attempts ++ [⟨w.clock, b, res.1⟩] }

/-- The attempts that counted in the period starting at `k`. -/
def inPeriod (w : World) (k : Int) : List Attempt := w.attempts.filter (·.bucket.startMs == k)

end World

/-- A change of the cache at `t` that leaves the throttle's counters of `r` alone: each reads
what it read, and the cache stays as bounded as it was. -/
def Untouched (r : String) (t : Stamp) (s s' : Cache.Store) : Prop :=
  s'.maxItems = s.maxItems ∧ ∀ b : Bucket, s'.view t (b.key r) = s.view t (b.key r)

/-- A step: the clock moves forward, a task makes an attempt on `r`, or anything else changes
the cache and leaves the counters of `r` alone. -/
inductive Step (r : String) (p : Nat) : World → World → Prop where
  | tick {w : World} {c : Int} (h : w.clock ≤ c) : Step r p w { w with clock := c }
  | attempt {w : World} : Step r p w (w.attempt r p)
  | other {w : World} {s : Cache.Store} (h : Untouched r w.now w.cache s) :
      Step r p w { w with cache := s }

/-- The worlds reached from an empty unbounded cache. -/
def Reachable (r : String) (p : Nat) (w : World) : Prop :=
  ∃ c, Relation.ReflTransGen (Step r p) ⟨Cache.Store.empty none, c, []⟩ w

/-- The answers of a period whose counter counted `n` attempts, and then refused `e` more at the
largest 64-bit count. -/
def tally (n e : Nat) : List (Except CounterFault Int) :=
  (List.range n).map (fun i => .ok (i + 1)) ++ List.replicate e (.error .overflow)

theorem tally_succ (n : Nat) : tally n 0 ++ [.ok (n + 1)] = tally (n + 1) 0 := by
  simp [tally, List.range_succ]

theorem tally_overflow (n e : Nat) : tally n e ++ [.error .overflow] = tally n (e + 1) := by
  simp [tally, List.replicate_succ']

namespace World

variable {r : String} {p : Nat} {w : World}

theorem attempt_eq : w.attempt r p =
    { w with
      cache := ((Bucket.containing w.clock p).count r w.now).run w.cache |>.2,
      attempts := w.attempts ++
        [⟨w.clock, Bucket.containing w.clock p,
          ((Bucket.containing w.clock p).count r w.now).run w.cache |>.1⟩] } := by
  simp only [attempt, now, millis_ofMillis]

theorem inPeriod_snoc {w' : World} {a : Attempt} (h : w'.attempts = w.attempts ++ [a]) (k : Int) :
    w'.inPeriod k = w.inPeriod k ++ if a.bucket.startMs = k then [a] else [] := by
  unfold inPeriod
  rw [h, List.filter_append, List.filter_singleton]
  by_cases hk : a.bucket.startMs = k
  · simp [hk]
  · simp [beq_false_of_ne hk, hk]

end World

/-! ## The invariant -/

/-- What every reached world satisfies, for a resource `r` and periods of `p` milliseconds. The
cache stays unbounded; every attempt counted in the period containing its instant; and the
answers of each period are the counts 1, 2, …, `n` in order, refused ones after them only at
the largest 64-bit count, while until the period's end its counter reads `n`. -/
structure Sound (r : String) (p : Nat) (w : World) : Prop where
  unbounded : w.cache.maxItems = none
  placed : ∀ a ∈ w.attempts, a.bucket = Bucket.containing a.time p
  counted : ∀ b : Bucket, ∃ n e, (w.inPeriod b.startMs).map (·.count) = tally n e ∧
    (n : Int) ≤ i64Max ∧ ((n : Int) < i64Max → e = 0) ∧
    (w.clock < b.startMs + p → Reads (b.startMs + p) n (w.cache.view w.now (b.key r)))

namespace Sound

variable {r : String} {p : Nat} {w : World}

theorem empty (c : Int) : Sound r p ⟨Cache.Store.empty none, c, []⟩ where
  unbounded := rfl
  placed := by simp
  counted := by
    intro b
    exact ⟨0, 0, rfl, Int.le_of_lt i64Max_pos, fun _ => rfl, fun _ => rfl⟩

theorem tick (h : Sound r p w) {c : Int} (hc : w.clock ≤ c) :
    Sound r p { w with clock := c } where
  unbounded := h.unbounded
  placed := h.placed
  counted := by
    intro b
    obtain ⟨n, e, hcount, hn, he, hreads⟩ := h.counted b
    refine ⟨n, e, hcount, hn, he, fun hend => ?_⟩
    change c < b.startMs + p at hend
    have hle : w.now ≤ Stamp.ofMillis c := by
      show w.clock * 1000000 ≤ c * 1000000
      omega
    -- the counter keeps reading `n` until the period's end
    have ht : (Stamp.ofMillis c).nanos < (b.startMs + p) * 1000000 := by
      show c * 1000000 < (b.startMs + p) * 1000000
      omega
    simp only [World.now]
    rw [view_later hle]
    exact (hreads (by omega)).later ht

theorem other (h : Sound r p w) {s : Cache.Store} (hs : Untouched r w.now w.cache s) :
    Sound r p { w with cache := s } where
  unbounded := hs.1.trans h.unbounded
  placed := h.placed
  counted := by
    intro b
    obtain ⟨n, e, hcount, hn, he, hreads⟩ := h.counted b
    refine ⟨n, e, hcount, hn, he, fun hend => ?_⟩
    show Reads (b.startMs + p) n (s.view w.now (b.key r))
    rw [hs.2 b]
    exact hreads hend

/-- An attempt counts once in its own period: the first stores 1, a later one adds one to the
count, and past the largest 64-bit count it is refused and changes nothing. No other period's
counter or answers change. -/
theorem attempt (hp : 0 < p) (hp' : p < Nat.pow 2 63) (h : Sound r p w) :
    Sound r p (w.attempt r p) := by
  obtain ⟨b₀, hb₀⟩ : ∃ b, b = Bucket.containing w.clock p := ⟨_, rfl⟩
  obtain ⟨-, hstart, hlt, hend⟩ := containing_spec hp w.clock
  rw [← hb₀] at hstart hlt hend
  obtain ⟨n, e, hcount, hn, he, hreads⟩ := h.counted b₀
  have hr := hreads (by omega)
  have ht : w.now.nanos < (b₀.startMs + p) * 1000000 := by
    show w.clock * 1000000 < _
    omega
  have hx : ∀ y, expiry w.now (some (b₀.ttl w.now)) = some y →
      (b₀.startMs + p) * 1000000 < y.nanos := by
    intro y hy
    rw [hb₀] at hy
    rw [← hend, hb₀]
    exact expiry_ttl_after hp hp' w.clock hy
  obtain ⟨hview, hans⟩ := count_run h.unbounded b₀ r w.now
  rw [World.attempt_eq, ← hb₀]
  refine ⟨count_maxItems h.unbounded _ _ _, ?_, ?_⟩
  · intro a ha
    rcases List.mem_append.1 ha with ha | ha
    · exact h.placed a ha
    · rw [List.mem_singleton] at ha
      rw [ha, hb₀]
  · intro b
    rw [World.inPeriod_snoc (w := w) rfl]
    by_cases hk : b₀.startMs = b.startMs
    · -- the attempt's own period
      have hK : b.key r = b₀.key r := by
        unfold Bucket.key
        rw [hk]
      rw [if_pos hk, hK, ← hk]
      by_cases hlt' : (n : Int) < i64Max
      · obtain ⟨hans', hreads'⟩ := spec_increment_counts hlt' hr ht hx
        obtain rfl := he hlt'
        have hres : ((b₀.count r w.now).run w.cache).1 = .ok (n + 1) := by
          rw [hans'] at hans
          simpa [Answer.addCount] using hans
        refine ⟨n + 1, 0, ?_, by omega, fun _ => rfl, fun _ => ?_⟩
        · rw [List.map_append, hcount, List.map_singleton]
          simp only [hres]
          exact_mod_cast tally_succ n
        · show Reads _ _ (((b₀.count r w.now).run w.cache).2.view w.now (b₀.key r))
          rw [hview]
          exact hreads'
      · have hthis := spec_increment_overflow (t := w.now) (d := b₀.ttl w.now) (by omega) hr
        have hres : ((b₀.count r w.now).run w.cache).1 = .error .overflow := by
          rw [hthis] at hans
          simpa [Answer.addCount] using hans
        refine ⟨n, e + 1, ?_, hn, fun h' => absurd h' hlt', fun _ => ?_⟩
        · rw [List.map_append, hcount, List.map_singleton]
          simp only [hres]
          exact tally_overflow n e
        · show Reads _ _ (((b₀.count r w.now).run w.cache).2.view w.now (b₀.key r))
          rw [hview, hthis]
          exact hr
    · -- another period: neither its answers nor its counter change
      have hK : b.key r ≠ b₀.key r := fun h' => hk (Bucket.key_inj h').symm
      obtain ⟨n', e', hcount', hn', he', hreads'⟩ := h.counted b
      rw [if_neg hk, List.append_nil]
      refine ⟨n', e', hcount', hn', he', fun hend' => ?_⟩
      show Reads _ _ (((b₀.count r w.now).run w.cache).2.view w.now (b.key r))
      rw [hview, spec_increment_frame hK]
      exact hreads' hend'

end Sound

theorem Step.sound {r : String} {p : Nat} (hp : 0 < p) (hp' : p < Nat.pow 2 63) {w w' : World}
    (hs : Step r p w w') (h : Sound r p w) : Sound r p w' := by
  cases hs with
  | tick hc => exact h.tick hc
  | attempt => exact h.attempt hp hp'
  | other hu => exact h.other hu

theorem Reachable.sound {r : String} {p : Nat} (hp : 0 < p) (hp' : p < Nat.pow 2 63) {w : World}
    (hw : Reachable r p w) : Sound r p w := by
  obtain ⟨c, hrun⟩ := hw
  induction hrun with
  | refl => exact Sound.empty c
  | tail _ hs ih => exact hs.sound hp hp' ih

/-! ## The grants of a period -/

/-- Of the attempts counted 1, …, `n` and then refused, those granted by the limit `m` are
the first `min m n`. -/
theorem grants_tally (m n e : Nat) :
    (tally n e).map (grants m) =
      List.replicate (min m n) true ++ List.replicate (n - min m n + e) false := by
  have hcounted : ∀ n : Nat, (List.range n).map (fun i : Nat => grants m (.ok ((i : Int) + 1))) =
      List.replicate (min m n) true ++ List.replicate (n - min m n) false := by
    intro n
    induction n with
    | zero => simp
    | succ n ih =>
      rw [List.range_succ, List.map_append, ih, List.map_singleton]
      by_cases hn : n + 1 ≤ m
      · have hg : grants m (.ok ((n : Int) + 1)) = true := by
          simp only [grants, decide_eq_true_eq]
          omega
        rw [hg, Nat.min_eq_right (by omega), Nat.min_eq_right hn, Nat.sub_self, Nat.sub_self,
          List.replicate_zero, List.append_nil, List.append_nil, List.replicate_succ']
      · have hg : grants m (.ok ((n : Int) + 1)) = false := by
          simp only [grants, decide_eq_false_iff_not]
          omega
        rw [hg, Nat.min_eq_left (by omega), Nat.min_eq_left (by omega),
          show n + 1 - m = (n - m) + 1 by omega, List.replicate_succ', List.append_assoc]
  have hrefused : grants m (.error .overflow) = false := rfl
  unfold tally
  rw [List.map_append, List.map_map, List.map_replicate, hrefused]
  simp only [Function.comp_def]
  rw [hcounted, List.append_assoc, ← List.replicate_add]

theorem map_granted {l : List Attempt} {m n e : Nat} (h : l.map (·.count) = tally n e) :
    l.map (·.granted m) = (tally n e).map (grants m) := by
  rw [← h, List.map_map]
  rfl

theorem length_filter_granted {l : List Attempt} {m n e : Nat}
    (h : l.map (·.count) = tally n e) : (l.filter (·.granted m)).length = min m n := by
  have hcount : l.countP (·.granted m) = (l.map (·.granted m)).countP id := by
    rw [List.countP_map]
    rfl
  rw [← List.countP_eq_length_filter, hcount, map_granted h, grants_tally, List.countP_append,
    List.countP_replicate, List.countP_replicate]
  simp

/-! ## Attempts and turns of the loop -/

theorem World.attempt_frame {r : String} {p : Nat} {w : World} (hu : w.cache.maxItems = none)
    {K : String} (hK : K ≠ (Bucket.containing w.clock p).key r) :
    (w.attempt r p).cache.view w.now K = w.cache.view w.now K := by
  rw [World.attempt_eq]
  show (((Bucket.containing w.clock p).count r w.now).run w.cache).2.view w.now K = _
  rw [(count_run hu _ r w.now).1]
  exact spec_increment_frame hK

/-- A turn on a host whose cache and wall clock are the world's is the world's next attempt,
granting until the end of its period exactly when the attempt is granted. -/
theorem World.attempt_of_turn {r : String} {m p started fuel : Nat} {dl : Option Nat}
    {cache : Nat} {h h' : Host} {res : Except LockError (Option Grant)} (w : World)
    (hc : h.caches[cache]? = some w.cache) (hclock : w.clock = h.startMs + h.kernel.clock)
    (hr : (pollThrottle cache r m p started dl (fuel + 1)).run.Run h res h') :
    ∃ a h₁, (w.attempt r p).attempts = w.attempts ++ [a] ∧
      h₁.caches = h.caches.set cache (w.attempt r p).cache ∧
      ((a.granted m = true ∧ ∃ l, res = .ok (some l) ∧ l.resource = r ∧
          l.leaseExpiresAt = a.bucket.endStamp ∧ h'.caches = h₁.caches) ∨
        (a.granted m = false ∧ ((∃ f, res = .error f ∧ h' = h₁) ∨
          (res = .ok none ∧ h'.caches = h₁.caches) ∨
          ∃ u, (pollThrottle cache r m p started dl fuel).run.Run u res h'))) := by
  obtain ⟨t, b, h₁, rfl, rfl, hcaches, hturn⟩ := pollThrottle_turn hc hr
  have hnow : h.instant = w.now := by
    rw [World.now, hclock, Host.instant]
  rw [hnow] at hcaches hturn
  refine ⟨_, h₁, rfl, hcaches, ?_⟩
  rcases hturn with ⟨n, hn, hle, l, hres, hlr, hle', hc'⟩ | ⟨f, hf, hres, rfl⟩ |
    ⟨n, hn, hlt, hrest⟩
  · have hg : grants m (.ok n) = true := by
      simp only [grants, decide_eq_true_eq]
      exact hle
    exact .inl ⟨hn ▸ hg, l, hres, hlr, hle', hc'⟩
  · exact .inr ⟨hf ▸ rfl, .inl ⟨_, hres, rfl⟩⟩
  · have hg : grants m (.ok n) = false := by
      simp only [grants, decide_eq_false_iff_not]
      omega
    rcases hrest with hnone | ⟨-, u, hu⟩
    · exact .inr ⟨hn ▸ hg, .inr (.inl hnone)⟩
    · exact .inr ⟨hn ▸ hg, .inr (.inr ⟨u, hu⟩)⟩

/-! ## The budget of a period -/

/-- The throttle's budget, in every world reached from an empty cache by tasks asking for `r`
with the options `o`, whose period is `p` milliseconds. Every attempt counted in the period
`[k, k + p)` containing its instant, with `k` a multiple of `p`. The answers of each period are
the counts 1, …, `n` in the order the attempts were made, failures only after the largest
64-bit count, and while the period lasts its counter reads `n`: it is never reset. So the
attempts granted are the first `min m n`, at most `m` of them. An attempt changes no key but
its period's counter; a turn of the provider's loop is such an attempt, granted until its
period's end exactly when the attempt is; and renewing or releasing a lock hands no slot back. -/
theorem throttle_first_grants {o : ThrottleOptions} {p : Nat} (hp : o.periodMillis = .ok p)
    {r : String} {w : World} (hw : Reachable r p w) :
    (∀ a ∈ w.attempts, a.bucket.startMs % p = 0 ∧ a.bucket.startMs ≤ a.time ∧
        a.time < a.bucket.endMs ∧ a.bucket.endMs = a.bucket.startMs + p) ∧
      (∀ b : Bucket, ∃ n e, (w.inPeriod b.startMs).map (·.count) = tally n e ∧
        ((n : Int) < i64Max → e = 0) ∧
        (w.clock < b.startMs + p → Reads (b.startMs + p) n (w.cache.view w.now (b.key r))) ∧
        (w.inPeriod b.startMs).map (·.granted o.maxPerPeriod) =
          List.replicate (min o.maxPerPeriod n) true ++
            List.replicate (n - min o.maxPerPeriod n + e) false ∧
        ((w.inPeriod b.startMs).filter (·.granted o.maxPerPeriod)).length ≤ o.maxPerPeriod) ∧
      (∀ K, K ≠ (Bucket.containing w.clock p).key r →
        (w.attempt r p).cache.view w.now K = w.cache.view w.now K) ∧
      (∀ {cache started fuel : Nat} {dl : Option Nat} {h h' : Host}
        {res : Except LockError (Option Grant)},
        h.caches[cache]? = some w.cache → w.clock = h.startMs + h.kernel.clock →
        (pollThrottle cache r o.maxPerPeriod p started dl (fuel + 1)).run.Run h res h' →
        ∃ a h₁, (w.attempt r p).attempts = w.attempts ++ [a] ∧
          h₁.caches = h.caches.set cache (w.attempt r p).cache ∧
          ((a.granted o.maxPerPeriod = true ∧ ∃ l, res = .ok (some l) ∧ l.resource = r ∧
              l.leaseExpiresAt = a.bucket.endStamp ∧ h'.caches = h₁.caches) ∨
            (a.granted o.maxPerPeriod = false ∧ ((∃ f, res = .error f ∧ h' = h₁) ∨
              (res = .ok none ∧ h'.caches = h₁.caches) ∨
              ∃ u, (pollThrottle cache r o.maxPerPeriod p started dl fuel).run.Run u res
                h')))) ∧
      (∀ (store : Nat) (l : Grant) (ext : Duration) (h h' : Host)
        (res : Except LockError (Bool × Grant)),
        ((Provider.throttle store o).renew l ext).run.Run h res h' →
          res = .ok (true, l) ∧ h' = h) ∧
      (∀ (store : Nat) (l : Grant) (h h' : Host) (res : Except LockError Bool),
        ((Provider.throttle store o).release l).run.Run h res h' →
          res = .ok true ∧ h' = h) := by
  obtain ⟨hp₀, hp₁⟩ := periodMillis_bounds hp
  have hs := hw.sound hp₀ hp₁
  refine ⟨?_, ?_, fun K hK => World.attempt_frame hs.unbounded hK,
    fun hc hclock hr => World.attempt_of_turn w hc hclock hr,
    fun _ _ _ _ _ _ hr => renew_throttle hr, fun _ _ _ _ _ hr => release_throttle hr⟩
  · -- each attempt's period, from the period containing its instant
    intro a ha
    rw [hs.placed a ha]
    exact containing_spec hp₀ a.time
  · intro b
    obtain ⟨n, e, hcount, -, he, hreads⟩ := hs.counted b
    refine ⟨n, e, hcount, he, hreads, (map_granted hcount).trans (grants_tally _ n e), ?_⟩
    rw [length_filter_granted hcount]
    exact Nat.min_le_left _ _

/-- Two attempts in the first ten milliseconds, with one grant per period of ten: at most one
is granted. -/
theorem throttle_first_grants_one_of_two :
    ThrottleOptions.periodMillis ⟨1, Duration.ofMillis 10⟩ = .ok 10 ∧
      Reachable "r" 10
        (((⟨Cache.Store.empty none, 0, []⟩ : World).attempt "r" 10).attempt "r" 10) ∧
      (((((⟨Cache.Store.empty none, 0, []⟩ : World).attempt "r" 10).attempt "r" 10).inPeriod
        0).filter (·.granted 1)).length ≤ 1 := by
  have hp : ThrottleOptions.periodMillis ⟨1, Duration.ofMillis 10⟩ = .ok 10 := rfl
  have hw : Reachable "r" 10
      (((⟨Cache.Store.empty none, 0, []⟩ : World).attempt "r" 10).attempt "r" 10) :=
    ⟨0, .tail (.single .attempt) .attempt⟩
  obtain ⟨-, hperiods, -⟩ := throttle_first_grants hp hw
  obtain ⟨n, e, -, -, -, -, hle⟩ := hperiods ⟨0, 10⟩
  exact ⟨hp, hw, hle⟩

/-- Over a cache that keeps one item, a write of a key that is no counter evicts the counter of
the current period, and the next attempt of the period counts one again: with a limit of one,
two grants in one period. -/
theorem bounded_cache_breaks_budget :
    let w₁ := (⟨Cache.Store.empty (some 1), 0, []⟩ : World).attempt "r" 10
    let w₂ : World := { w₁ with cache := ((Cache.Store.put "x" [49] none w₁.now).run w₁.cache).2 }
    ((w₂.attempt "r" 10).inPeriod 0).map (·.granted 1) = [true, true] := by
  decide +kernel

/- Of two attempts in one period with a limit of one, the first is granted. -/
example : ((((⟨Cache.Store.empty none, 0, []⟩ : World).attempt "r" 10).attempt "r" 10).inPeriod
    0).map (·.granted 1) = [true, false] := by
  decide +kernel

end Backplane.Lock.Throttle
