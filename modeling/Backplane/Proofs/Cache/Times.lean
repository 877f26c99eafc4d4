import Backplane.Proofs.Cache.Eviction

/-!
# The times of cache entries

Every entry of a cache carries three times: when it was created, last written and last read.
Two code paths set them: a new entry (`Entry.fresh`) gets the instant of its creation three
times, and a write over a live entry (`Entry.write`) sets the last two; a read sets the last
alone, and a new expiry leaves all three.

`Call.touch` says what each operation does to the times of a key, from the live values before
it: a read of the key reads it; an `add`, `set` or `increment` that finds no live value
creates it; a `set`, a matching `replaceIfEqual` or an `increment` in range over a live value
writes it; everything else, failed conditional writes included, keeps the times.
`Request.timesFrom_run` says that with keys stored once every request, bounded or not, leaves
each key what its touch gives of the times before (`Store.TimesFrom`). From that step:

* `Request.timesOrdered_runAll`: requests at instants that never go back keep every entry
  created, then written, then read, no later than the last instant;
* `Request.created_runAll`: the creation time of a key is the instant of the last request that
  created it;
* `entry_times` puts the three together for every cache requests reach from an empty one.
-/

namespace Backplane.Cache

/-- The times of an entry: when it was created, last written and last read. -/
structure Times where
  created : Stamp
  written : Stamp
  read : Stamp
  deriving Repr, DecidableEq

namespace Times

/-- Created, then written, then read, and no later than `now`. -/
def Ordered (x : Times) (now : Stamp) : Prop :=
  x.created ≤ x.written ∧ x.written ≤ x.read ∧ x.read ≤ now

/-- Read at `now`. -/
def readAt (x : Times) (now : Stamp) : Times := { x with read := now }

/-- Written, and so read, at `now`. -/
def writtenAt (x : Times) (now : Stamp) : Times := { x with written := now, read := now }

/-- Created, written and read at `now`. -/
def fresh (now : Stamp) : Times := ⟨now, now, now⟩

end Times

/-- The times of an entry. -/
def Entry.times (e : Entry) : Times := ⟨e.createdAt, e.lastWriteAt, e.lastAccessAt⟩

@[simp] theorem Entry.times_fresh {v : Bytes} {x : Option Stamp} {now : Stamp} :
    (Entry.fresh v x now).times = Times.fresh now := rfl

@[simp] theorem Entry.times_write {e : Entry} {v : Bytes} {x : Option Stamp} {now : Stamp} :
    (e.write v x now).times = e.times.writtenAt now := rfl

@[simp] theorem Entry.times_read {e : Entry} {now : Stamp} :
    ({ e with lastAccessAt := now } : Entry).times = e.times.readAt now := rfl

@[simp] theorem Entry.times_expiresAt {e : Entry} {x : Option Stamp} :
    ({ e with expiresAt := x } : Entry).times = e.times := rfl

/-- What a request does to the times of a key. -/
inductive Touch where
  /-- The times stay as they were. -/
  | keep
  /-- The key is read. -/
  | read
  /-- The key's live value is written over. -/
  | write
  /-- The key is written with no live value: a new entry. -/
  | create
  deriving Repr, DecidableEq

/-- The times a touch leaves, from the times stored before. -/
def Touch.apply (now : Stamp) : Touch → Option Times → Option Times
  | .keep, x => x
  | .read, x => x.map (·.readAt now)
  | .write, x => x.map (·.writtenAt now)
  | .create, _ => some (Times.fresh now)

/-- What a call at `now` does to the times of the key `k`, over the live values `m`: a read of
`k` reads it; an `add`, `set` or `increment` of `k` with no live value creates it; a `set` of
a live value, a `replaceIfEqual` that finds the expected value and an `increment` of a live
counter that stays in range write it; everything else, failed conditional writes included,
keeps the times. -/
def Call.touch (m : TtlMap) (c : Call) (k : String) : Touch :=
  match c with
  | .get k' | .contains k' => if k = k' then .read else .keep
  | .add k' _ _ => if k = k' ∧ m k = none then .create else .keep
  | .set k' _ _ => if k ≠ k' then .keep else if m k = none then .create else .write
  | .replaceIfEqual k' x _ _ =>
    if k = k' ∧ (m k).map (·.value) = some x then .write else .keep
  | .increment k' b _ =>
    if k ≠ k' then .keep
    else match m k with
      | none => .create
      | some v =>
        match Store.parseCounter v.value with
        | some c => if c + b < Store.i64Min ∨ Store.i64Max < c + b then .keep else .write
        | none => .keep
  | _ => .keep

/-- What a request does to the times of a key; a look at the times and a sweep keep them. -/
def Request.touch (m : TtlMap) : Request → String → Touch
  | .call c, k => c.touch m k
  | _, _ => .keep

/-! ## Times in a store -/

namespace Store

/-- The times of the entry stored under a key, expired or not. -/
def times (s : Store) (k : String) : Option Times := (s.find? k).map Entry.times

/-- `s'` stores under every key what the touches `f` at `now` leave of the times in `s`. -/
def TimesFrom (s s' : Store) (now : Stamp) (f : String → Touch) : Prop :=
  ∀ k x, s'.times k = some x → (f k).apply now (s.times k) = some x

variable {s s' : Store} {k k' : String} {t now : Stamp} {e e' : Entry} {f : String → Touch}

theorem times_of_find? (h : s.find? k = some e) : s.times k = some e.times := by
  simp [times, h]

/-- With keys stored once, entries kept from a cache keep their times. -/
theorem times_of_sublist (hk : s.Keyed) (hsub : s'.entries.Sublist s.entries) {x : Times}
    (h : s'.times k = some x) : s.times k = some x := by
  obtain ⟨e', he', rfl⟩ := Option.map_eq_some_iff.1 h
  exact times_of_find? (find?_of_mem hk (hsub.subset (mem_of_find? he')))

theorem times_update :
    (s.update k e).times k' = if k' = k then (s.times k).map fun _ => e.times else s.times k' := by
  unfold times
  rw [find?_update]
  split
  · rw [Option.map_map, Option.map_map]; rfl
  · rfl

theorem times_erase : (s.erase k).times k' = if k' = k then none else s.times k' := by
  unfold times
  rw [find?_erase]
  split <;> simp

theorem TimesFrom.of_sublist (hk : s.Keyed) (hsub : s'.entries.Sublist s.entries)
    (hf : ∀ k, f k ≠ .keep → s'.times k = none) : TimesFrom s s' now f := by
  intro k x hx
  have := times_of_sublist hk hsub hx
  by_cases h : f k = .keep
  · rw [h]; exact this
  · rw [hf k h] at hx; cases hx

/-! ## Inserting a key anew -/

/-- An insert after dropping a key keeps some of the other entries, in order, and puts the new
one last, bounded or not. -/
theorem insert_entries_erase :
    ∃ rest, rest.Sublist (s.erase k).entries ∧
      ((insert k e t).run (s.erase k)).2.entries = rest ++ [(k, e)] := by
  cases hm : s.maxItems with
  | none =>
    rw [insert_run (s := s.erase k) hm find?_erase_self]
    exact ⟨_, .refl _, rfl⟩
  | some m =>
    obtain ⟨es, vs, rest, hes, hev, -, hrun⟩ :=
      insert_run_bounded (s := s.erase k) (e := e) (t := t) hm find?_erase_self
    have hsub : es.Sublist (s.erase k).entries := by
      rcases hes with rfl | rfl
      exacts [.refl _, List.filter_sublist]
    rw [hrun]
    exact ⟨rest, hev.sublist.trans hsub, rfl⟩

theorem times_insert_erase (hk : s.Keyed) :
    ((insert k e t).run (s.erase k)).2.times k = some e.times ∧
      ∀ k' x, k' ≠ k → ((insert k e t).run (s.erase k)).2.times k' = some x →
        s.times k' = some x := by
  obtain ⟨rest, hsub, hent⟩ := insert_entries_erase (s := s) (k := k) (e := e) (t := t)
  have hnk : ∀ p ∈ rest, p.1 ≠ k := fun p hp => by
    have := hsub.subset hp
    simp only [erase, List.mem_filter, bne_iff_ne, ne_eq] at this
    exact this.2
  have hfind : ∀ k', ((insert k e t).run (s.erase k)).2.find? k' =
      if k' = k then some e else (rest.find? (·.1 == k')).map (·.2) := by
    intro k'
    unfold find?
    rw [hent, List.find?_append]
    by_cases hk' : k' = k
    · subst hk'
      have : rest.find? (·.1 == k') = none :=
        List.find?_eq_none.2 fun p hp => by simpa using hnk p hp
      simp [this]
    · cases h : rest.find? (·.1 == k') <;> simp [hk', Ne.symm hk']
  refine ⟨by simp [times, hfind], fun k' x hne hx => ?_⟩
  simp only [times, hfind, hne, if_false] at hx
  obtain ⟨e', he', rfl⟩ := Option.map_eq_some_iff.1 hx
  obtain ⟨p, hp, rfl⟩ := Option.map_eq_some_iff.1 he'
  have hpk : p.1 = k' := by simpa using List.find?_some hp
  have hmem : (k', p.2) ∈ s.entries := by
    have := (hsub.trans List.filter_sublist).subset (List.mem_of_find?_eq_some hp)
    rwa [← hpk]
  exact times_of_find? (find?_of_mem hk hmem)

theorem keyed_insert_erase (hk : s.Keyed) :
    ((insert k e t).run (s.erase k)).2.Keyed := by
  obtain ⟨rest, hsub, hent⟩ := insert_entries_erase (s := s) (k := k) (e := e) (t := t)
  show (((insert k e t).run (s.erase k)).2.entries.map (·.1)).Nodup
  rw [hent, List.map_append, List.nodup_append]
  refine ⟨hk.erase.sublist (hsub.map _), List.nodup_singleton _, ?_⟩
  intro a ha b hb
  obtain ⟨p, hp, rfl⟩ := List.mem_map.1 ha
  simp only [List.map_cons, List.map_nil, List.mem_singleton] at hb
  subst hb
  have := List.of_mem_filter (hsub.subset hp)
  simpa using this

/-! ## What each request leaves of the times -/

theorem timesFrom_keep (hk : s.Keyed) (hsub : s'.entries.Sublist s.entries) :
    TimesFrom s s' now fun _ => .keep :=
  TimesFrom.of_sublist hk hsub fun _ h => absurd rfl h

theorem timesFrom_erase (hk : s.Keyed) (hf : ∀ k', f k' ≠ .keep → k' = k) :
    TimesFrom s (s.erase k) now f :=
  TimesFrom.of_sublist hk List.filter_sublist fun k' h => by
    rw [times_erase, if_pos (hf k' h)]

/-- Replacing the entry stored under a key, with the times its touch gives. -/
theorem timesFrom_update (hf : s.find? k = some e)
    (hτ : (f k).apply now (some e.times) = some e'.times)
    (hkeep : ∀ k', k' ≠ k → f k' = .keep) :
    TimesFrom s (s.update k e') now f := by
  intro k' x hx
  rw [times_update] at hx
  by_cases h : k' = k
  · subst h
    rw [if_pos rfl, times_of_find? hf] at hx
    cases hx
    rw [times_of_find? hf, hτ]
  · rw [if_neg h] at hx
    rw [hkeep k' h]
    exact hx

/-- Writing a key with no live value: a new entry, created at `now`. -/
theorem timesFrom_insert (hk : s.Keyed) {v : Bytes} {x : Option Stamp} (hc : f k = .create)
    (hkeep : ∀ k', k' ≠ k → f k' = .keep) :
    TimesFrom s ((insert k (Entry.fresh v x now) now).run (s.erase k)).2 now f := by
  obtain ⟨hnew, hold⟩ := times_insert_erase (e := Entry.fresh v x now) (t := now) (k := k) hk
  intro k' y hy
  by_cases h : k' = k
  · subst h
    rw [hnew] at hy
    cases hy
    rw [hc]
    rfl
  · rw [hkeep k' h]
    exact hold k' y h hy

theorem timesFrom_self (hf : ∀ k, f k = .keep) : TimesFrom s s now f := by
  intro k x hx
  rw [hf k]
  exact hx

section calls

variable (hk : s.Keyed) {v x : Bytes} {ttl : Option Duration}
include hk

theorem timesFrom_read :
    TimesFrom s ((read k now).run s).2 now fun k' => if k' = k then .read else .keep := by
  rcases live_or_dead s k now with ⟨e, hf, he⟩ | hd
  · rw [read_run_live hf he]
    exact timesFrom_update hf (by simp [Touch.apply]) fun k' h => if_neg h
  · rw [read_run_dead hd]
    exact timesFrom_erase hk fun k' h => by_contra fun hne => h (if_neg hne)

theorem timesFrom_add :
    TimesFrom s ((add k v ttl now).run s).2 now ((Call.add k v ttl).touch (s.view now)) := by
  rcases live_or_dead s k now with ⟨e, hf, he⟩ | hd
  · rw [add_run_live hf he]
    exact timesFrom_self fun k' => by
      by_cases h : k' = k
      · subst h; simp [Call.touch, view_live hf he]
      · simp [Call.touch, h]
  · rw [add_run_insert hd]
    exact timesFrom_insert hk (by simp [Call.touch, view_dead hd])
      fun k' h => by simp [Call.touch, h]

theorem timesFrom_put :
    TimesFrom s ((put k v ttl now).run s).2 now ((Call.set k v ttl).touch (s.view now)) := by
  rcases live_or_dead s k now with ⟨e, hf, he⟩ | hd
  · rw [put_run_live hf he]
    exact timesFrom_update hf (by simp [Call.touch, view_live hf he, Touch.apply])
      fun k' h => by simp [Call.touch, h]
  · rw [put_run_insert hd]
    exact timesFrom_insert hk (by simp [Call.touch, view_dead hd])
      fun k' h => by simp [Call.touch, h]

theorem timesFrom_replaceIfEqual :
    TimesFrom s ((replaceIfEqual k x v ttl now).run s).2 now
      ((Call.replaceIfEqual k x v ttl).touch (s.view now)) := by
  rcases live_or_dead s k now with ⟨e, hf, he⟩ | hd
  · rw [replaceIfEqual_run_live hf he]
    by_cases hx : e.value = x
    · rw [if_pos hx]
      exact timesFrom_update hf (by simp [Call.touch, view_live hf he, hx, Touch.apply])
        fun k' h => by simp [Call.touch, h]
    · rw [if_neg hx]
      exact timesFrom_self fun k' => by
        by_cases h : k' = k <;> simp [Call.touch, view_live hf he, hx, h]
  · rw [replaceIfEqual_run_dead hd]
    exact timesFrom_erase hk fun k' h => by
      by_contra hne
      exact h (by simp [Call.touch, hne])

theorem timesFrom_increment {b : Int} :
    TimesFrom s ((increment k b ttl now).run s).2 now
      ((Call.increment k b ttl).touch (s.view now)) := by
  rcases live_or_dead s k now with ⟨e, hf, he⟩ | hd
  · rw [increment_run_live hf he]
    have hkeep : ∀ k', k' ≠ k → (Call.increment k b ttl).touch (s.view now) k' = .keep :=
      fun k' h => by simp [Call.touch, h]
    cases hp : parseCounter e.value with
    | none =>
      exact timesFrom_self fun k' => by
        by_cases h : k' = k
        · subst h; simp [Call.touch, view_live hf he, hp]
        · exact hkeep k' h
    | some c =>
      by_cases ho : c + b < i64Min ∨ i64Max < c + b
      · simp only [ho, if_true]
        exact timesFrom_self fun k' => by
          by_cases h : k' = k
          · subst h; simp [Call.touch, view_live hf he, hp, ho]
          · exact hkeep k' h
      · simp only [ho, if_false]
        exact timesFrom_update hf (by simp [Call.touch, view_live hf he, hp, ho, Touch.apply])
          hkeep
  · rw [increment_run_insert hd]
    exact timesFrom_insert hk (by simp [Call.touch, view_dead hd])
      fun k' h => by simp [Call.touch, h]

theorem timesFrom_live :
    TimesFrom s ((live k now).run s).2 now fun _ => .keep := by
  rcases live_or_dead s k now with ⟨e, hf, he⟩ | hd
  · rw [live_run_live hf he]
    exact timesFrom_self fun _ => rfl
  · rw [live_run_dead hd]
    exact timesFrom_keep hk List.filter_sublist

end calls

/-- The times of a cache are in order and no later than `t`. -/
def TimesOrdered (s : Store) (t : Stamp) : Prop := ∀ k x, s.times k = some x → x.Ordered t

theorem timesOrdered_empty {bound : Option Nat} : (empty bound).TimesOrdered t := by
  intro k x hx
  simp [times, find?, empty] at hx

end Store

open Store

variable {s : Store} {k : String} {t now : Stamp} {x : Times}

/-- What every request does to the times: with keys stored once, the cache after a request at
`now` stores under every key the times that the request's touch leaves of those before. -/
theorem Request.timesFrom_run (hk : s.Keyed) (r : Request) (now : Stamp) :
    TimesFrom s ((r.run now).run s).2 now (r.touch (s.view now)) := by
  cases r with
  | call c =>
    cases c with
    | get k => exact timesFrom_read hk
    | contains k =>
      simp only [Request.run, Call.run, run_fmap, contains_run]
      exact timesFrom_read hk
    | add k v ttl => exact timesFrom_add hk
    | set k v ttl => exact timesFrom_put hk
    | replaceIfEqual k x v ttl => exact timesFrom_replaceIfEqual hk
    | increment k b ttl => exact timesFrom_increment hk
    | removeIfEqual k x =>
      simp only [Request.run, Call.run, run_fmap]
      rcases live_or_dead s k now with ⟨e, hf, he⟩ | hd
      · rw [removeIfEqual_run_live hf he]
        split
        · exact timesFrom_keep hk List.filter_sublist
        · exact timesFrom_self fun _ => rfl
      · rw [removeIfEqual_run_dead hd]
        exact timesFrom_keep hk List.filter_sublist
    | remove k =>
      simp only [Request.run, Call.run, run_fmap, remove_run]
      exact timesFrom_keep hk List.filter_sublist
    | getExpiration k =>
      simp only [Request.run, Call.run, run_fmap, expiration_run]
      exact timesFrom_live hk
    | setExpiration k d =>
      simp only [Request.run, Call.run, run_fmap]
      rcases live_or_dead s k now with ⟨e, hf, he⟩ | hd
      · rw [setExpiration_run_live hf he]
        exact timesFrom_update hf rfl fun _ _ => rfl
      · rw [setExpiration_run_dead hd]
        exact timesFrom_keep hk List.filter_sublist
    | removeAll ks =>
      simp only [Request.run, Call.run, run_fmap, removeAll_run]
      exact timesFrom_keep hk List.filter_sublist
    | removeByPrefix pre =>
      simp only [Request.run, Call.run, run_fmap, removeByPrefix_run]
      exact timesFrom_keep hk List.filter_sublist
    | flush =>
      simp only [Request.run, Call.run, run_fmap, flush_run]
      exact timesFrom_keep hk (List.nil_sublist _)
  | metadata k =>
    simp only [Request.run, run_fmap, metadata_run]
    exact timesFrom_live hk
  | sweep =>
    simp only [Request.run, run_fmap, sweep_run]
    exact timesFrom_keep hk List.filter_sublist

theorem Request.keyed_run (hk : s.Keyed) (r : Request) (now : Stamp) :
    ((r.run now).run s).2.Keyed := by
  rcases Request.run_cases r s now with ⟨-, -, -, hkeys⟩ | ⟨k, e, a, -, hrun, -⟩
  · exact hk.sublist hkeys
  · rw [hrun]
    exact keyed_insert_erase hk

/-! ## Touches -/

namespace Touch

theorem apply_created {τ : Touch} {o : Option Times} (hc : τ ≠ .create)
    (h : τ.apply now o = some x) : ∃ y, o = some y ∧ y.created = x.created := by
  cases τ with
  | keep => exact ⟨x, h, rfl⟩
  | read =>
    obtain ⟨y, rfl, rfl⟩ := Option.map_eq_some_iff.1 h
    exact ⟨y, rfl, rfl⟩
  | write =>
    obtain ⟨y, rfl, rfl⟩ := Option.map_eq_some_iff.1 h
    exact ⟨y, rfl, rfl⟩
  | create => exact absurd rfl hc

/-- Touching at `now` times in order up to an earlier instant leaves them in order up to
`now`. -/
theorem apply_ordered {τ : Touch} {o : Option Times} (ho : ∀ y, o = some y → y.Ordered t)
    (ht : t ≤ now) (h : τ.apply now o = some x) : x.Ordered now := by
  cases τ with
  | keep =>
    obtain ⟨hcw, hwr, hrt⟩ := ho x h
    exact ⟨hcw, hwr, Int.le_trans hrt ht⟩
  | read =>
    obtain ⟨y, rfl, rfl⟩ := Option.map_eq_some_iff.1 h
    obtain ⟨hcw, hwr, hrt⟩ := ho y rfl
    exact ⟨hcw, Int.le_trans hwr (Int.le_trans hrt ht), Int.le_refl _⟩
  | write =>
    obtain ⟨y, rfl, rfl⟩ := Option.map_eq_some_iff.1 h
    obtain ⟨hcw, hwr, hrt⟩ := ho y rfl
    exact ⟨Int.le_trans hcw (Int.le_trans hwr (Int.le_trans hrt ht)), Int.le_refl _,
      Int.le_refl _⟩
  | create =>
    cases h
    exact ⟨Int.le_refl _, Int.le_refl _, Int.le_refl _⟩

end Touch

/-! ## Runs -/

namespace Request

theorem runAll_cons {r : Request} {rs : List (Request × Stamp)} :
    ((runAll ((r, t) :: rs)).run s).2 = ((runAll rs).run ((r.run t).run s).2).2 := by
  simp only [runAll, List.mapM_cons, StateT.run_bind]
  rfl

theorem keyed_runAll (hk : s.Keyed) (rs : List (Request × Stamp)) :
    ((runAll rs).run s).2.Keyed := by
  induction rs generalizing s with
  | nil => exact hk
  | cons r rs ih =>
    rw [runAll_cons]
    exact ih (keyed_run hk r.1 r.2)

/-- The cache that the requests `rs` reach from an empty cache with the bound `bound`. -/
def reach (bound : Option Nat) (rs : List (Request × Stamp)) : Store :=
  ((runAll rs).run (empty bound)).2

/-- The cache before the request at position `i` of `rs`, run from `s`. -/
def before (rs : List (Request × Stamp)) (s : Store) (i : Nat) : Store :=
  ((runAll (rs.take i)).run s).2

/-- What the request at position `i` of `rs`, run from `s`, does to the times of `k`;
past the end, nothing. -/
def touchAt (rs : List (Request × Stamp)) (s : Store) (k : String) (i : Nat) : Touch :=
  match rs[i]? with
  | some (r, t) => r.touch ((before rs s i).view t) k
  | none => .keep

@[simp] theorem touchAt_cons_zero {r : Request} {rs : List (Request × Stamp)} :
    touchAt ((r, t) :: rs) s k 0 = r.touch (s.view t) k := rfl

@[simp] theorem touchAt_cons_succ {r : Request} {rs : List (Request × Stamp)} {i : Nat} :
    touchAt ((r, t) :: rs) s k (i + 1) = touchAt rs ((r.run t).run s).2 k i := by
  simp only [touchAt, before, List.getElem?_cons_succ, List.take_succ_cons, runAll_cons]

/-- Requests at instants that do not go back, from `t₀` on and up to `now`, keep the times of
a cache in order. -/
theorem timesOrdered_runAll {t₀ : Stamp} (hk : s.Keyed) (hs : s.TimesOrdered t₀)
    (rs : List (Request × Stamp)) (hmono : rs.Pairwise fun a b => a.2 ≤ b.2)
    (h₀ : ∀ p ∈ rs, t₀ ≤ p.2) (hnow : t₀ ≤ now) (hle : ∀ p ∈ rs, p.2 ≤ now) :
    ((runAll rs).run s).2.TimesOrdered now := by
  induction rs generalizing s t₀ with
  | nil => exact fun k x hx => Touch.apply_ordered (τ := .keep) (hs k) hnow hx
  | cons p rs ih =>
    obtain ⟨r, t⟩ := p
    rw [List.pairwise_cons] at hmono
    have ht : t₀ ≤ t := h₀ _ List.mem_cons_self
    -- one step: the request's touches keep the times in order up to its instant
    have hstep : ((r.run t).run s).2.TimesOrdered t := fun k x hx =>
      Touch.apply_ordered (hs k) ht (Request.timesFrom_run hk r t k x hx)
    rw [runAll_cons]
    exact ih (keyed_run hk r t) hstep hmono.2 (fun q hq => hmono.1 q hq)
      (hle _ List.mem_cons_self) fun q hq => hle q (List.mem_cons_of_mem _ hq)

/-- The creation time of every key a run leaves is the instant of the last request that
created it, or, when none did, the creation time it had before the run. -/
theorem created_runAll (hk : s.Keyed) (rs : List (Request × Stamp))
    (h : ((runAll rs).run s).2.times k = some x) :
    (∃ i r, rs[i]? = some (r, x.created) ∧ touchAt rs s k i = .create ∧
      ∀ j, i < j → touchAt rs s k j ≠ .create) ∨
    ((∀ j, touchAt rs s k j ≠ .create) ∧
      ∃ y, s.times k = some y ∧ y.created = x.created) := by
  induction rs generalizing s with
  | nil =>
    refine .inr ⟨fun j => ?_, x, h, rfl⟩
    simp [touchAt]
  | cons p rs ih =>
    obtain ⟨r, t⟩ := p
    rw [runAll_cons] at h
    rcases ih (keyed_run hk r t) h with ⟨i, r', hi, hc, hlast⟩ | ⟨hnone, y, hy, hyc⟩
    · -- created later in the run: shift the positions by one
      refine .inl ⟨i + 1, r', by simpa using hi, by simpa using hc, fun j hj => ?_⟩
      obtain ⟨j, rfl⟩ : ∃ j', j = j' + 1 := ⟨j - 1, by omega⟩
      simpa using hlast j (by omega)
    · -- created by this request, or kept from before it
      have hstep := Request.timesFrom_run hk r t k y hy
      by_cases hc : r.touch (s.view t) k = .create
      · rw [hc] at hstep
        cases hstep
        refine .inl ⟨0, r, by simp [← hyc, Times.fresh], by simpa using hc, fun j hj => ?_⟩
        obtain ⟨j, rfl⟩ : ∃ j', j = j' + 1 := ⟨j - 1, by omega⟩
        simpa using hnone j
      · obtain ⟨z, hz, hzc⟩ := Touch.apply_created hc hstep
        refine .inr ⟨fun j => ?_, z, hz, hzc.trans hyc⟩
        cases j with
        | zero => simpa using hc
        | succ j => simpa using hnone j

end Request

/-- Entry times. In every cache that requests reach from an empty cache, bounded or not, at
instants that never go back and are all at or before `now`, every entry stored (so every live
one) was created, then written, then read, no later than `now`; it was created at the instant
of the last request that created its key, an `add`, `set` or `increment` that found no live
value; and the next request at `now` leaves each key the times its touch says: created,
written and read at `now` by a write with no live value, written and read at `now` with the
creation kept by a write over a live value, read at `now` by a read, and kept as they were by
everything else, failed conditional writes, `metadata` and `setExpiration` included. -/
theorem entry_times (bound : Option Nat) (rs : List (Request × Stamp))
    (hmono : rs.Pairwise fun a b => a.2 ≤ b.2) (now : Stamp) (hnow : ∀ p ∈ rs, p.2 ≤ now) :
    (∀ k x, (Request.reach bound rs).times k = some x →
      x.Ordered now ∧
      ∃ i r, rs[i]? = some (r, x.created) ∧ Request.touchAt rs (empty bound) k i = .create ∧
        ∀ j, i < j → Request.touchAt rs (empty bound) k j ≠ .create) ∧
    ∀ r : Request, TimesFrom (Request.reach bound rs) ((r.run now).run (Request.reach bound rs)).2
      now (r.touch ((Request.reach bound rs).view now)) := by
  have hk₀ : (empty bound).Keyed := List.nodup_nil
  have hord : (Request.reach bound rs).TimesOrdered now := by
    cases rs with
    | nil => exact timesOrdered_empty
    | cons p rs =>
      have hp := List.pairwise_cons.1 hmono
      exact Request.timesOrdered_runAll hk₀ timesOrdered_empty (p :: rs) hmono
        (fun q hq => (List.mem_cons.1 hq).elim (fun h => h ▸ Int.le_refl _) (hp.1 q))
        (hnow p List.mem_cons_self) hnow
  refine ⟨fun k x hx => ⟨hord k x hx, ?_⟩,
    fun r => Request.timesFrom_run (Request.keyed_runAll hk₀ rs) r now⟩
  rcases Request.created_runAll hk₀ rs hx with hlast | ⟨-, y, hy, -⟩
  · exact hlast
  · simp [times, find?, empty] at hy

/-- A key set at 1 ms and set again at 6 ms. -/
theorem entry_times_overwrite :
    ([(Request.call (.set "k" [49] none), (⟨1000000⟩ : Stamp)),
        (.call (.set "k" [50] none), ⟨6000000⟩)].Pairwise fun a b => a.2 ≤ b.2) ∧
      (∀ p ∈ [(Request.call (.set "k" [49] none), (⟨1000000⟩ : Stamp)),
        (.call (.set "k" [50] none), ⟨6000000⟩)], p.2 ≤ ⟨6000000⟩) ∧
      (∀ k x, (Request.reach none [(Request.call (.set "k" [49] none), (⟨1000000⟩ : Stamp)),
          (.call (.set "k" [50] none), ⟨6000000⟩)]).times k = some x →
        x.Ordered ⟨6000000⟩ ∧
        ∃ i r, [(Request.call (.set "k" [49] none), (⟨1000000⟩ : Stamp)),
            (.call (.set "k" [50] none), ⟨6000000⟩)][i]? = some (r, x.created) ∧
          Request.touchAt [(Request.call (.set "k" [49] none), (⟨1000000⟩ : Stamp)),
            (.call (.set "k" [50] none), ⟨6000000⟩)] (empty none) k i = .create ∧
          ∀ j, i < j → Request.touchAt [(Request.call (.set "k" [49] none),
            (⟨1000000⟩ : Stamp)), (.call (.set "k" [50] none), ⟨6000000⟩)] (empty none) k j ≠
            .create) ∧
      ∀ r : Request,
        TimesFrom (Request.reach none [(Request.call (.set "k" [49] none), (⟨1000000⟩ : Stamp)),
            (.call (.set "k" [50] none), ⟨6000000⟩)])
          ((r.run ⟨6000000⟩).run (Request.reach none [(Request.call (.set "k" [49] none),
            (⟨1000000⟩ : Stamp)), (.call (.set "k" [50] none), ⟨6000000⟩)])).2 ⟨6000000⟩
          (r.touch ((Request.reach none [(Request.call (.set "k" [49] none),
            (⟨1000000⟩ : Stamp)), (.call (.set "k" [50] none), ⟨6000000⟩)]).view ⟨6000000⟩)) := by
  have hmono : [(Request.call (.set "k" [49] none), (⟨1000000⟩ : Stamp)),
      (.call (.set "k" [50] none), ⟨6000000⟩)].Pairwise fun a b => a.2 ≤ b.2 := by decide
  have hnow : ∀ p ∈ [(Request.call (.set "k" [49] none), (⟨1000000⟩ : Stamp)),
      (.call (.set "k" [50] none), ⟨6000000⟩)], p.2 ≤ ⟨6000000⟩ := by decide
  exact ⟨hmono, hnow, entry_times none _ hmono ⟨6000000⟩ hnow⟩

/-- The overwrite keeps the creation time and moves the other two. -/
example : (Request.reach none [(Request.call (.set "k" [49] none), (⟨1000000⟩ : Stamp)),
    (.call (.set "k" [50] none), ⟨6000000⟩)]).times "k" =
    some ⟨⟨1000000⟩, ⟨6000000⟩, ⟨6000000⟩⟩ := by
  decide +kernel

end Backplane.Cache
