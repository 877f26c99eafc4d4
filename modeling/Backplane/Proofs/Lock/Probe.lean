import Backplane.Proofs.Lock.Polling

/-!
# Asking whether a resource is taken

`Provider.isLocked` answers from the provider's state alone, without waiting. An acquire with
no time to try (`AcquireOptions` with `acquireTimeout = 0`) asks the same question by trying
once. This module compares the two answers, given at the same instant from the same host.

* A cache-backed provider's probe reads the resource's key and its acquire adds under it. An add
  fails exactly on a live key (`Store.add_fst_eq_not_contains`), so the two always agree.
* The null provider is never taken and always grants.
* A throttling provider's probe reads the current period's counter, and an absent counter reads
  as free. Its acquire increments that counter and compares the new count with the limit. The
  two agree whenever a period allows one grant or more and the counter is short of the largest
  64-bit count (`Provider.Probeable`). They disagree with a limit of zero: on a period with no
  counter yet the probe answers free, and the acquire still gives up (`throttle_zero_probe_free`).
-/

namespace Backplane.Lock

open Backplane.Fiber Prog Host Cache

variable {h h' : Host}

/-! ## The cache's answers -/

theorem Store.add_fst_eq_not_contains (c : Store) (k : String) (v : Bytes)
    (ttl : Option Duration) (t : Stamp) :
    ((Store.add k v ttl t).run c).1 = !((Store.contains k t).run c).1 := by
  rcases Store.live_or_dead c k t with ⟨e, hf, he⟩ | hd
  · rw [Store.add_run_live hf he, Store.contains_run, Store.read_run_live hf he]
    rfl
  · have ha : ((Store.add k v ttl t).run c).1 = true := by
      simp only [Store.add, StateT.run_bind, Store.live_run_dead hd]
      rfl
    rw [ha, Store.contains_run, Store.read_run_dead hd]
    rfl

theorem parseCounter_range {b : Bytes} {i : Int} (h : Store.parseCounter b = some i) :
    Store.i64Min ≤ i ∧ i ≤ Store.i64Max := by
  unfold Store.parseCounter at h
  simp only [Option.bind_eq_some_iff] at h
  obtain ⟨j, -, hj⟩ := h
  split at hj
  · rename_i hr
    cases hj
    simpa only [Bool.and_eq_true, decide_eq_true_eq] using hr
  · cases hj

theorem increment_fst_live {c : Store} {k : String} {ttl : Option Duration} {t : Stamp}
    {e : Entry} {n : Int} (hf : c.find? k = some e) (he : e.isExpired t = false)
    (hn : Store.parseCounter e.value = some n) (hmax : n ≠ Store.i64Max) :
    ((Store.increment k 1 ttl t).run c).1 = .ok (n + 1) := by
  have hr := parseCounter_range hn
  have hok : ¬ (n + 1 < Store.i64Min ∨ Store.i64Max < n + 1) := by omega
  rw [Store.increment_run_live hf he]
  simp only [hn, hok, if_false]

theorem increment_fst_notANumber {c : Store} {k : String} {ttl : Option Duration} {t : Stamp}
    {e : Entry} (hf : c.find? k = some e) (he : e.isExpired t = false)
    (hn : Store.parseCounter e.value = none) :
    ((Store.increment k 1 ttl t).run c).1 = .error .notANumber := by
  rw [Store.increment_run_live hf he]
  simp only [hn]

theorem increment_fst_dead {c : Store} {k : String} {ttl : Option Duration} {t : Stamp}
    (hd : ∀ e, c.find? k = some e → e.isExpired t = true) :
    ((Store.increment k 1 ttl t).run c).1 = .ok 1 := by
  simp only [Store.increment, StateT.run_bind, Store.live_run_dead hd]
  rfl

/-! ## The probe -/

section Probe

variable {R : String} {b : Bool}

theorem isLocked_cache_run {store released : Nat} {o : CacheLockOptions} {announce : Bool}
    {sub : Option Nat} {c : Store} (hc : h.caches[store]? = some c)
    (hb : ((Provider.cache store o released announce sub).isLocked R).run.Run h (.ok b) h') :
    b = ((Store.contains (lockKey R) h.instant).run c).1 := by
  simp only [Provider.isLocked, ExceptT.run_bind, run_bind, run_onHost] at hb
  obtain ⟨_, h₁, ⟨t, ht, rfl⟩, hb⟩ := hb
  obtain ⟨rfl, rfl⟩ := run_now.1 ht
  simp only [run_onHost] at hb
  obtain ⟨a, ha, hab⟩ := hb
  obtain ⟨rfl, -⟩ := (run_onCache hc).1 ha
  cases hab
  rfl

theorem isLocked_null_run (hb : (Provider.null.isLocked R).run.Run h (.ok b) h') : b = false := by
  simp only [Provider.isLocked, ExceptT.run_bind, run_bind, run_onHost] at hb
  obtain ⟨_, h₁, ⟨t, -, rfl⟩, hb⟩ := hb
  simp only [ExceptT.run_pure, run_pure] at hb
  cases hb.1
  rfl

/-- A throttling provider's probe reads the counter of the period containing the host's
instant: taken when it is live and its count, a text that is no number reading as zero, has
reached the limit. -/
theorem isLocked_throttle_run {store : Nat} {o : ThrottleOptions} {c : Store}
    (hc : h.caches[store]? = some c)
    (hb : ((Provider.throttle store o).isLocked R).run.Run h (.ok b) h') :
    ∃ p, o.periodMillis = .ok p ∧
      (b = true ↔ ∃ v, ((Store.read ((Bucket.containing h.instant.millis p).key R)
          h.instant).run c).1 = some v ∧
        (o.maxPerPeriod : Int) ≤ (Store.parseCounter v.value).getD 0) := by
  simp only [Provider.isLocked, ExceptT.run_bind, run_bind, run_onHost] at hb
  obtain ⟨_, h₁, ⟨t, ht, rfl⟩, hb⟩ := hb
  obtain ⟨rfl, rfl⟩ := run_now.1 ht
  simp only [ExceptT.run_mk, run_bind, run_pure] at hb
  obtain ⟨x, h₂, ⟨rfl, rfl⟩, hb⟩ := hb
  cases hp : o.periodMillis with
  | error e =>
    rw [hp] at hb
    cases (run_pure.1 hb).1
  | ok p =>
    rw [hp] at hb
    simp only [run_bind, run_onHost] at hb
    obtain ⟨_, h₃, ⟨v, hv, rfl⟩, hb⟩ := hb
    obtain ⟨rfl, -⟩ := (run_onCache hc).1 hv
    refine ⟨p, rfl, ?_⟩
    cases hread : (StateT.run (Store.read ((Bucket.containing h₂.instant.millis p).key R)
        h₂.instant) c).1 with
    | none =>
      rw [hread] at hb
      simp only [ExceptT.run_pure, run_pure] at hb
      cases hb.1
      simp
    | some v =>
      rw [hread] at hb
      simp only [ExceptT.run_pure, run_pure] at hb
      cases hb.1
      simp

end Probe

/-! ## An acquire with no time to try -/

section Immediate

variable {R : String} {L : Duration}

theorem acquire_null_run {r : Except LockError (Option Grant)}
    (hr : (Provider.null.acquire R ⟨Duration.zero, L⟩).run.Run h r h') :
    ∃ l, r = .ok (some l) := by
  simp only [Provider.acquire, run_onHost, run_bind, run_pure] at hr
  obtain ⟨_, ⟨_, _, -, _, _, -, _, _, -, l, _, -, rfl, -⟩, rfl⟩ := hr
  exact ⟨l, rfl⟩

/-- With no time to try, a throttling provider counts one attempt in the period containing the
host's instant, and gives up exactly when the count is past the limit. -/
theorem acquire_throttle_immediate {store : Nat} {o : ThrottleOptions} {p : Nat} {c : Store}
    {r : Except LockError (Option Grant)} (hp : o.periodMillis = .ok p)
    (hc : h.caches[store]? = some c)
    (hr : ((Provider.throttle store o).acquire R ⟨Duration.zero, L⟩).run.Run h r h') :
    r = .ok none ↔ ∃ n, (((Bucket.containing h.instant.millis p).count R h.instant).run c).1 =
      .ok n ∧ (o.maxPerPeriod : Int) < n := by
  simp only [Provider.acquire, throttleWith, ExceptT.run_bind, ExceptT.run_mk, run_bind,
    run_pure] at hr
  obtain ⟨x, _, ⟨rfl, rfl⟩, hr⟩ := hr
  have ho : ({ maxPerPeriod := o.maxPerPeriod, period := o.period } : ThrottleOptions) = o := rfl
  rw [ho, hp] at hr
  simp only [run_bind, run_onHost] at hr
  obtain ⟨_, h₁, ⟨k, hk, rfl⟩, hr⟩ := hr
  obtain ⟨rfl, rfl⟩ := run_clock.1 hk
  obtain ⟨t, b, h₂, rfl, rfl, -, hturn⟩ := pollThrottle_turn hc hr
  rcases hturn with ⟨n, hn, hle, l, rfl, -⟩ | ⟨f, hf, rfl, -⟩ | ⟨n, hn, hlt, hrest⟩
  · -- granted: the count is within the limit
    simp only [Except.ok.injEq, reduceCtorEq, false_iff, not_exists, not_and]
    intro n' hn'
    rw [hn] at hn'
    cases hn'
    omega
  · -- the counter failed: no count at all
    simp only [reduceCtorEq, false_iff, not_exists, not_and]
    intro n' hn'
    rw [hf] at hn'
    cases hn'
  · -- refused: with the deadline at the start there is no second turn
    refine ⟨fun _ => ⟨n, hn, hlt⟩, fun _ => ?_⟩
    rcases hrest with ⟨hres, -⟩ | ⟨hlate, -⟩
    · exact hres
    · have hlt' := hlate _ deadlineOf_zero
      exact absurd hlt' (Nat.lt_irrefl _)

/-- With no time to try, a cache-backed acquire makes its one add, at the host's instant, and
ends: it gives up exactly when the resource's key is live. -/
theorem acquire_cache_immediate {store released : Nat} {options : CacheLockOptions}
    {announce : Bool} {sub : Option Nat} {c : Store} {r : Except LockError (Option Grant)}
    (hc : h.caches[store]? = some c)
    (hr : ((Provider.cache store options released announce sub).acquire R
      ⟨Duration.zero, L⟩).run.Timed h r h') :
    ∃ a, r = .ok a ∧ (a = none ↔ ((Store.contains (lockKey R) h.instant).run c).1 = true) := by
  obtain ⟨tok, a, rfl, hp⟩ := acquire_cache_timed hr
  refine ⟨a, rfl, ?_⟩
  rw [show forever = (forever - 1) + 1 from rfl, pollCache, timed_bind] at hp
  obtain ⟨x, h₁, ht, hp⟩ := hp
  have hadd := Store.add_fst_eq_not_contains c (lockKey R) tok.toUTF8.toList (some L) h.instant
  rcases pollTurn_timed ht with ⟨l, rfl, hg⟩ | ⟨rfl, hg⟩ | ⟨rfl, hw⟩
  · -- the add went through, so the key was not live
    obtain ⟨rfl, -⟩ := timed_pure.1 hp
    obtain ⟨c', hc', hok, -⟩ := hg.added
    change h.caches[store]? = some c' at hc'
    rw [hc] at hc'
    cases hc'
    change ((Store.add (lockKey R) tok.toUTF8.toList (some L) h.instant).run c).1 = true at hok
    rw [hadd] at hok
    simp only [reduceCtorEq, false_iff]
    simpa using hok
  · -- the add was held off, so the key was live
    obtain ⟨rfl, -⟩ := timed_pure.1 hp
    have hno := hg.refused c hc
    change ((Store.add (lockKey R) tok.toUTF8.toList (some L) h.instant).run c).1 = false at hno
    rw [hadd] at hno
    simp only [true_iff]
    simpa using hno
  · -- no wait: the turn began at the deadline
    have := hw.before _ deadlineOf_zero
    exact absurd this (Nat.lt_irrefl _)

end Immediate

/-! ## The two answers -/

/-- The throttle's counter, read and incremented at the same instant: taken by the reading
exactly when the increment goes past the limit, for a limit of one or more and a counter short
of the largest count. -/
theorem counter_taken_iff_past {c : Store} {K : String} {ttl : Option Duration} {t : Stamp}
    {m : Nat} (hm : 1 ≤ m)
    (hmax : ∀ v, ((Store.read K t).run c).1 = some v →
      Store.parseCounter v.value ≠ some Store.i64Max) :
    (∃ v, ((Store.read K t).run c).1 = some v ∧ (m : Int) ≤ (Store.parseCounter v.value).getD 0) ↔
      ∃ n, ((Store.increment K 1 ttl t).run c).1 = .ok n ∧ (m : Int) < n := by
  rcases Store.live_or_dead c K t with ⟨e, hf, he⟩ | hd
  · have hread : ((Store.read K t).run c).1 = some ⟨e.value, e.expiresAt⟩ := by
      rw [Store.read_run_live hf he]
    cases hn : Store.parseCounter e.value with
    | none =>
      rw [hread, increment_fst_notANumber hf he hn]
      simp only [Option.some.injEq, exists_eq_left', hn, Option.getD_none, reduceCtorEq,
        false_and, exists_false, iff_false]
      omega
    | some n =>
      have hne : n ≠ Store.i64Max := by
        intro heq
        exact hmax _ hread (by rw [← heq]; exact hn)
      rw [hread, increment_fst_live hf he hn hne]
      simp only [Option.some.injEq, exists_eq_left', hn, Option.getD_some, Except.ok.injEq]
      omega
  · -- no live counter: free to the reading, and the increment starts at one
    rw [Store.read_run_dead hd, increment_fst_dead hd]
    simp only [reduceCtorEq, false_and, exists_false, Except.ok.injEq, exists_eq_left',
      false_iff]
    omega

/-- The states in which a provider's probe of `R` is compared with an immediate acquire: its
cache is there; and for a throttle, a period allows one grant or more, and the counter of the
period containing the host's instant, if live, is short of the largest 64-bit count. -/
def Provider.Probeable (h : Host) (R : String) : Provider → Prop
  | .cache store _ _ _ _ => ∃ c, h.caches[store]? = some c
  | .throttle store o => 1 ≤ o.maxPerPeriod ∧ ∃ c, h.caches[store]? = some c ∧
      ∀ p v, o.periodMillis = .ok p →
        ((Store.read ((Bucket.containing h.instant.millis p).key R) h.instant).run c).1 =
          some v → Store.parseCounter v.value ≠ some Store.i64Max
  | .null => True

/-- Where a provider is `Probeable`, its probe of `R` answers taken exactly when an acquire
with no time to try, from the same host, gives up. -/
theorem isLocked_iff_refused {p : Provider} {R : String} {L : Duration} {b : Bool}
    {r : Except LockError (Option Grant)} {h₁ h₂ : Host} (hp : p.Probeable h R)
    (hb : (p.isLocked R).run.Run h (.ok b) h₁)
    (hr : (p.acquire R ⟨Duration.zero, L⟩).run.Timed h r h₂) :
    b = true ↔ r = .ok none := by
  cases p with
  | cache store options released announce sub =>
    obtain ⟨c, hc⟩ := hp
    obtain ⟨a, rfl, ha⟩ := acquire_cache_immediate hc hr
    rw [isLocked_cache_run hc hb, ← ha]
    simp only [Except.ok.injEq]
  | throttle store o =>
    obtain ⟨hm, c, hc, hmax⟩ := hp
    obtain ⟨q, hq, hb⟩ := isLocked_throttle_run hc hb
    rw [hb, acquire_throttle_immediate hq hc hr.run]
    exact counter_taken_iff_past hm (hmax q · hq)
  | null =>
    obtain ⟨l, rfl⟩ := acquire_null_run hr.run
    rw [isLocked_null_run hb]
    simp

/-- On a fresh host, a throttle allowing one grant per second: its probe and an immediate
acquire, which both run, agree. -/
theorem isLocked_iff_refused_fresh :
    ∃ (b : Bool) (r : Except LockError (Option Grant)) (h₁ h₂ : Host),
      (Provider.throttle 0 ⟨1, Duration.ofMillis 1000⟩).Probeable
        ({ caches := [Cache.Store.empty none] } : Host) "R" ∧
      ((Provider.throttle 0 ⟨1, Duration.ofMillis 1000⟩).isLocked "R").run.Run
        ({ caches := [Cache.Store.empty none] } : Host) (.ok b) h₁ ∧
      ((Provider.throttle 0 ⟨1, Duration.ofMillis 1000⟩).acquire "R"
        ⟨Duration.zero, Duration.ofMillis 1000⟩).run.Timed
        ({ caches := [Cache.Store.empty none] } : Host) r h₂ ∧
      (b = true ↔ r = .ok none) := by
  have hp : (Provider.throttle 0 ⟨1, Duration.ofMillis 1000⟩).Probeable
      ({ caches := [Cache.Store.empty none] } : Host) "R" := by
    refine ⟨Nat.le_refl 1, _, rfl, ?_⟩
    intro p v _ hv
    cases hv
  have hb : ∃ h₁, ((Provider.throttle 0 ⟨1, Duration.ofMillis 1000⟩).isLocked "R").run.Run
      ({ caches := [Cache.Store.empty none] } : Host) (.ok false) h₁ := by
    apply Exists.intro
    repeat (first | apply Run.read | apply Run.put)
    exact run_done.2 ⟨rfl, rfl⟩
  have hr : ∃ r h₂, ((Provider.throttle 0 ⟨1, Duration.ofMillis 1000⟩).acquire "R"
      ⟨Duration.zero, Duration.ofMillis 1000⟩).run.Timed
      ({ caches := [Cache.Store.empty none] } : Host) r h₂ := by
    apply Exists.intro
    apply Exists.intro
    repeat (first | apply Timed.read | apply Timed.put)
    exact Timed.done
  obtain ⟨h₁, hb⟩ := hb
  obtain ⟨r, h₂, hr⟩ := hr
  exact ⟨false, r, h₁, h₂, hp, hb, hr, isLocked_iff_refused hp hb hr⟩

/-! ## A limit of zero -/

theorem Store.dead_of_read_none {c : Store} {K : String} {t : Stamp}
    (h : ((Store.read K t).run c).1 = none) : ∀ e, c.find? K = some e → e.isExpired t = true := by
  rcases Store.live_or_dead c K t with ⟨e, hf, he⟩ | hd
  · rw [Store.read_run_live hf he] at h
    cases h
  · exact hd

/-- With a limit of zero, on a period whose counter is not live, the probe answers free, yet an
acquire with no time to try gives up: its increment starts the counter at one, past the limit. -/
theorem throttle_zero_probe_free {store : Nat} {o : ThrottleOptions} {p : Nat} {c : Store}
    {R : String} {L : Duration} {b : Bool} {r : Except LockError (Option Grant)} {h₁ h₂ : Host}
    (hm : o.maxPerPeriod = 0) (hp : o.periodMillis = .ok p) (hc : h.caches[store]? = some c)
    (hfree : ((Store.read ((Bucket.containing h.instant.millis p).key R) h.instant).run c).1 =
      none)
    (hb : ((Provider.throttle store o).isLocked R).run.Run h (.ok b) h₁)
    (hr : ((Provider.throttle store o).acquire R ⟨Duration.zero, L⟩).run.Timed h r h₂) :
    b = false ∧ r = .ok none := by
  obtain ⟨q, hq, hb⟩ := isLocked_throttle_run hc hb
  rw [hp] at hq
  cases hq
  refine ⟨?_, ?_⟩
  · rw [hfree] at hb
    simpa using hb
  · rw [acquire_throttle_immediate hp hc hr.run, Bucket.count,
      increment_fst_dead (Store.dead_of_read_none hfree), hm]
    exact ⟨1, rfl, by decide⟩

/-- The failing case on a fresh host: a throttle allowing no grant per second, asked about a
resource no one has asked for. Its probe answers free and its acquire gives up. -/
theorem throttle_zero_probe_free_fresh :
    (∃ h₁, ((Provider.throttle 0 ⟨0, Duration.ofMillis 1000⟩).isLocked "R").run.Run
        ({ caches := [Cache.Store.empty none] } : Host) (.ok false) h₁) ∧
      ∃ h₂, ((Provider.throttle 0 ⟨0, Duration.ofMillis 1000⟩).acquire "R"
        ⟨Duration.zero, Duration.ofMillis 1000⟩).run.Timed
        ({ caches := [Cache.Store.empty none] } : Host) (.ok none) h₂ := by
  refine ⟨?_, ?_⟩
  · apply Exists.intro
    repeat (first | apply Run.read | apply Run.put)
    exact run_done.2 ⟨rfl, rfl⟩
  · apply Exists.intro
    repeat (first | apply Timed.read | apply Timed.put)
    exact timed_done.2 ⟨rfl, rfl⟩

end Backplane.Lock
