import Mathlib.Data.List.Nodup
import Backplane.Proofs.Cache.Refinement

/-!
# A bounded cache: at most `max m 1` entries, the least recently read evicted first

A cache bounded by `m` items reads its bound in one place only: storing an entry under a key
that holds no entry (`Store.insert`). When the cache is full it first drops its expired
entries; then, while it still holds `max m 1` entries or more, it evicts an entry read longest
ago (`Store.evict`), one at a time, counting each.

* `Evicts now es vs rest`: evicting `vs` one after the other from the entries `es` leaves
  `rest`, each victim being, at its turn, a live entry read no later than every entry left.
* `Request.run_cases`: every request (an operation of the cache interface, a look at a key's
  times, or a sweep) either runs on a bounded cache exactly as on the same cache unbounded,
  keeping or dropping keys, or stores an entry under a key with no live entry after dropping
  what that key held.
* `Store.insert_run_bounded`: what such an insert does on a bounded cache.
* `eviction_least_recent`: in every cache that requests reach from an empty cache bounded by
  `m`, at most `max m 1` entries are stored, and the next request replies what it replies on
  the same cache unbounded and leaves what it leaves there, save that while inserting a key
  with no live entry it may drop the expired entries and then evict, least recently read
  first, counting every entry it evicts.
-/

namespace Backplane.Cache

/-! ## Requests -/

/-- A request to a cache: an operation of the cache interface, a look at a key's times, or a
sweep of the expired entries. -/
inductive Request where
  | call (c : Call)
  | metadata (key : String)
  | sweep

/-- What a request replies. -/
inductive Reply where
  | answer (a : Answer)
  | metadata (m : Option Metadata)

namespace Request

/-- A request on a cache at `now`. -/
def run (now : Stamp) : Request → Op Reply
  | .call c => .answer <$> c.run now
  | .metadata k => .metadata <$> Store.metadata k now
  | .sweep => (fun n => .answer (.count n)) <$> Store.sweep now

/-- Requests one after the other, each at its instant, with their replies in order. -/
def runAll (rs : List (Request × Stamp)) : Op (List Reply) := rs.mapM fun r => r.1.run r.2

end Request

/-! ## Evicting the least recently read -/

/-- Evicting `vs` one after the other from the entries `es` leaves `rest`: each victim is, at
its turn, an entry read no later than every entry left, all of which are live. -/
inductive Evicts (now : Stamp) :
    List (String × Entry) → List (String × Entry) → List (String × Entry) → Prop
  | done (es : List (String × Entry)) : Evicts now es [] es
  | evict {es vs rest : List (String × Entry)} {v : String × Entry} (hv : v ∈ es)
      (hlive : ∀ p ∈ es, p.2.isExpired now = false)
      (hmin : ∀ p ∈ es, v.2.lastAccessAt ≤ p.2.lastAccessAt)
      (h : Evicts now (es.filter fun p => p.1 != v.1) vs rest) : Evicts now es (v :: vs) rest

namespace Evicts

variable {t : Stamp} {es vs rest : List (String × Entry)}

theorem sublist (h : Evicts t es vs rest) : rest.Sublist es := by
  induction h with
  | done => exact .refl _
  | evict _ _ _ _ ih => exact ih.trans List.filter_sublist

theorem length_eq (h : Evicts t es vs rest) (hk : (es.map (·.1)).Nodup) :
    es.length = vs.length + rest.length := by
  induction h with
  | done => simp
  | @evict es vs rest v hv _ _ _ ih =>
    have hsplit := List.length_eq_length_filter_add (l := es) fun p => p.1 != v.1
    have hone : (es.map (·.1)).count v.1 = 1 :=
      List.count_eq_one_of_mem hk (List.mem_map_of_mem hv)
    rw [List.count, List.countP_map, List.countP_eq_length_filter] at hone
    have hkey : (es.filter fun p => !(p.1 != v.1)) = es.filter fun p => p.1 == v.1 := by
      congr 1; funext p; exact Bool.not_not _
    have := ih (hk.sublist (List.filter_sublist.map _))
    simp only [Function.comp_def] at hone
    rw [hkey, hone] at hsplit
    simp only [List.length_cons]
    omega

end Evicts

namespace Store

variable {s : Store} {k : String} {t : Stamp} {e : Entry} {room fuel m : Nat}

theorem oldest?_eq_none {es : List (String × Entry)} : oldest? es = none ↔ es = [] := by
  cases es with
  | nil => simp [oldest?]
  | cons x rest =>
    simp only [oldest?, reduceCtorEq, iff_false]
    split <;> [split; skip] <;> simp

/-- The entry `oldest?` picks is stored and read no later than any other. -/
theorem oldest?_spec {es : List (String × Entry)} {p : String × Entry} (h : oldest? es = some p) :
    p ∈ es ∧ ∀ q ∈ es, p.2.lastAccessAt ≤ q.2.lastAccessAt := by
  induction es generalizing p with
  | nil => simp [oldest?] at h
  | cons x rest ih =>
    cases hr : oldest? rest with
    | none =>
      rw [oldest?_eq_none.1 hr] at h ⊢
      simp only [oldest?, Option.some.injEq] at h
      subst h
      simp only [List.mem_singleton, forall_eq, true_and]
      exact Int.le_refl _
    | some q =>
      -- the older of `x` and the oldest of the rest; `x` on a tie
      obtain ⟨hq, hmin⟩ := ih hr
      simp only [oldest?, hr] at h
      simp only [List.mem_cons, forall_eq_or_imp]
      by_cases hlt : q.2.lastAccessAt < x.2.lastAccessAt
      · simp only [hlt, if_true, Option.some.injEq] at h
        subst h
        exact ⟨.inr hq, Int.le_of_lt hlt, hmin⟩
      · simp only [hlt, if_false, Option.some.injEq] at h
        subst h
        exact ⟨.inl rfl, Int.le_refl _,
          fun r hr => Int.le_trans (Int.le_of_not_gt hlt) (hmin r hr)⟩

theorem evict_succ_run_lt (h : s.entries.length < room) :
    (evict room (fuel + 1)).run s = ((), s) := by
  simp [evict, Nat.not_le.2 h]; rfl

theorem evict_succ_run {p : String × Entry} (h : room ≤ s.entries.length)
    (hp : oldest? s.entries = some p) :
    (evict room (fuel + 1)).run s =
      (evict room fuel).run { s.erase p.1 with evictions := s.evictions + 1 } := by
  obtain ⟨k, e⟩ := p
  simp [evict, h, hp]

/-- The eviction loop, given fuel enough to bring a cache whose entries are live when it is
full below `room`: it evicts the least recently read entries one at a time and counts them. -/
theorem evict_run (hroom : 0 < room) (hfuel : s.entries.length < fuel + room)
    (hlive : room ≤ s.entries.length → ∀ p ∈ s.entries, p.2.isExpired t = false) :
    ∃ vs rest, Evicts t s.entries vs rest ∧ rest.length < room ∧
      (evict room fuel).run s =
        ((), { s with entries := rest, evictions := s.evictions + vs.length }) := by
  induction fuel generalizing s with
  | zero => exact ⟨[], s.entries, .done _, by omega, rfl⟩
  | succ fuel ih =>
    by_cases hfull : room ≤ s.entries.length
    · -- a full cache is not empty, so it has an entry read longest ago
      have hne : s.entries ≠ [] := List.ne_nil_of_length_pos (by omega)
      obtain ⟨p, hp⟩ := Option.ne_none_iff_exists'.1 fun h => hne (oldest?_eq_none.1 h)
      obtain ⟨hmem, hmin⟩ := oldest?_spec hp
      have hlt : (s.entries.filter fun q => q.1 != p.1).length < s.entries.length :=
        List.length_filter_lt_length_iff_exists.2 ⟨p, hmem, by simp⟩
      obtain ⟨vs, rest, hev, hlen, hrun⟩ :=
        ih (s := { s.erase p.1 with evictions := s.evictions + 1 })
        (show (s.entries.filter fun q => q.1 != p.1).length < fuel + room by omega)
        (fun _ q hq => hlive hfull q (List.mem_of_mem_filter hq))
      refine ⟨p :: vs, rest, .evict hmem (hlive hfull) hmin hev, hlen, ?_⟩
      rw [evict_succ_run hfull hp, hrun]
      simp only [erase, List.length_cons]
      congr 2
      omega
    · rw [evict_succ_run_lt (by omega)]
      exact ⟨[], s.entries, .done _, by omega, rfl⟩

/-! ## Inserting into a bounded cache -/

/-- The room an insert makes in a bounded cache: when it is full its expired entries go, then
the eviction loop runs. -/
theorem insert_run_room (hm : s.maxItems = some m) (hf : s.find? k = none) :
    (insert k e t).run s =
      let s₁ : Store :=
        { s with writes := s.writes + 1,
                 entries :=
                   if m ≤ s.entries.length then s.entries.filter (fun p => !p.2.isExpired t)
                   else s.entries }
      let s₂ := ((evict (max m 1) s₁.entries.length).run s₁).2
      ((), { s₂ with entries := s₂.entries ++ [(k, e)] }) := by
  simp only [find?, Option.map_eq_none_iff] at hf
  by_cases hfull : m ≤ s.entries.length <;> simp [insert, find?, hf, hm, hfull] <;> rfl

/-- Storing an entry under a key a bounded cache does not hold: the entries left after dropping
the expired ones when full (`es`) lose the victims `vs`, the rest fits below `max m 1`, and the
new entry goes last. -/
theorem insert_run_bounded (hm : s.maxItems = some m) (hf : s.find? k = none) :
    ∃ es vs rest, (es = s.entries ∨ es = s.entries.filter fun p => !p.2.isExpired t) ∧
      Evicts t es vs rest ∧ rest.length < max m 1 ∧
      (insert k e t).run s =
        ((), { s with entries := rest ++ [(k, e)], writes := s.writes + 1,
                      evictions := s.evictions + vs.length }) := by
  rw [insert_run_room hm hf]
  set es := if m ≤ s.entries.length then s.entries.filter (fun p => !p.2.isExpired t)
    else s.entries
  -- a cache full enough to evict was full, so only its live entries are left
  have hlive : max m 1 ≤ es.length → ∀ p ∈ es, p.2.isExpired t = false := by
    intro hroom p hp
    by_cases hfull : m ≤ s.entries.length
    · simp only [es, hfull, if_true] at hp
      simpa using (List.mem_filter.1 hp).2
    · simp only [es, hfull, if_false] at hroom
      omega
  obtain ⟨vs, rest, hev, hlen, hrun⟩ :=
    evict_run (s := { s with writes := s.writes + 1, entries := es })
    (show 0 < max m 1 by omega) (show es.length < es.length + max m 1 by omega) hlive
  refine ⟨es, vs, rest, ?_, hev, hlen, by simp only [hrun]⟩
  by_cases hfull : m ≤ s.entries.length
  · exact .inr (if_pos hfull)
  · exact .inl (if_neg hfull)

/-! ## Requests that insert and requests that do not -/

/-- The cache with its bound lifted. -/
def unbounded (s : Store) : Store := { s with maxItems := none }

variable {v : Bytes} {ttl : Option Duration}

theorem run_fmap {α β : Type} {f : α → β} {x : Op α} :
    (f <$> x).run s = (f (x.run s).1, (x.run s).2) := rfl

theorem add_run_insert (hd : ∀ e, s.find? k = some e → e.isExpired t = true) :
    (add k v ttl t).run s =
      (true, ((insert k (Entry.fresh v (expiry t ttl) t) t).run (s.erase k)).2) := by
  simp only [add, StateT.run_bind, live_run_dead hd]
  rfl

theorem put_run_insert (hd : ∀ e, s.find? k = some e → e.isExpired t = true) :
    (put k v ttl t).run s =
      ((), ((insert k (Entry.fresh v (expiry t ttl) t) t).run (s.erase k)).2) := by
  simp only [put, StateT.run_bind, live_run_dead hd]
  rfl

theorem increment_run_insert (hd : ∀ e, s.find? k = some e → e.isExpired t = true) {b : Int} :
    (increment k b ttl t).run s =
      (.ok b,
        ((insert k (Entry.fresh (counterBytes b) (expiry t ttl) t) t).run (s.erase k)).2) := by
  simp only [increment, StateT.run_bind, live_run_dead hd]
  rfl

theorem sweep_run : (sweep t).run s =
    ((s.entries.filter fun p => p.2.isExpired t).length,
      { s with entries := s.entries.filter fun p => !p.2.isExpired t }) := by
  have hsplit := List.length_eq_length_filter_add (l := s.entries) fun p => !p.2.isExpired t
  simp [sweep, hsplit]
  rfl

theorem metadata_run : (metadata k t).run s =
    (((live k t).run s).1.map fun e =>
        ⟨e.createdAt, e.lastWriteAt, e.lastAccessAt, e.expiresAt⟩,
      ((live k t).run s).2) := by
  simp [metadata]; rfl

theorem keys_update : (s.update k e).entries.map (·.1) = s.entries.map (·.1) := by
  simp only [update, List.map_map]
  refine List.map_congr_left fun p _ => ?_
  by_cases h : p.1 = k <;> simp [h]

theorem keys_erase : ((s.erase k).entries.map (·.1)).Sublist (s.entries.map (·.1)) :=
  List.filter_sublist.map _

theorem keys_keep (q : String × Entry → Bool) :
    ((s.entries.filter q).map (·.1)).Sublist (s.entries.map (·.1)) :=
  List.filter_sublist.map _

end Store

open Store in
/-- Every request either runs on a cache exactly as on the same cache unbounded, keeping or
dropping keys, or stores an entry under a key with no live entry after dropping what the key
held; only such an insert reads the bound. -/
theorem Request.run_cases (r : Request) (s : Store) (now : Stamp) :
    (((r.run now).run s).1 = ((r.run now).run s.unbounded).1 ∧
      ((r.run now).run s).2 = { ((r.run now).run s.unbounded).2 with maxItems := s.maxItems } ∧
      ((r.run now).run s).2.evictions = s.evictions ∧
      (((r.run now).run s).2.entries.map (·.1)).Sublist (s.entries.map (·.1))) ∨
    ∃ k e a, (∀ e', s.find? k = some e' → e'.isExpired now = true) ∧
      (r.run now).run s = (a, ((insert k e now).run (s.erase k)).2) ∧
      (r.run now).run s.unbounded = (a, ((insert k e now).run (s.unbounded.erase k)).2) := by
  have dead : ∀ k, (∀ e', s.find? k = some e' → e'.isExpired now = true) →
      ∀ e', s.unbounded.find? k = some e' → e'.isExpired now = true := fun _ hd => hd
  cases r with
  | call c =>
    cases c with
    | get k | contains k =>
      left
      rcases live_or_dead s k now with ⟨e, hf, he⟩ | hd
      · simp only [Request.run, Call.run, run_fmap, contains_run, read_run_live hf he,
          read_run_live (s := s.unbounded) hf he]
        exact ⟨by trivial, rfl, by trivial, by rw [keys_update]⟩
      · simp only [Request.run, Call.run, run_fmap, contains_run, read_run_dead hd,
          read_run_dead (dead k hd)]
        exact ⟨by trivial, rfl, by trivial, keys_erase⟩
    | add k v ttl =>
      rcases live_or_dead s k now with ⟨e, hf, he⟩ | hd
      · left
        simp only [Request.run, Call.run, run_fmap, add_run_live hf he,
          add_run_live (s := s.unbounded) hf he]
        exact ⟨by trivial, rfl, by trivial, .refl _⟩
      · refine .inr ⟨k, Entry.fresh v (expiry now ttl) now, .answer (.flag true), hd, ?_, ?_⟩
        · simp only [Request.run, Call.run, run_fmap, add_run_insert hd]
        · simp only [Request.run, Call.run, run_fmap, add_run_insert (dead k hd)]
    | set k v ttl =>
      rcases live_or_dead s k now with ⟨e, hf, he⟩ | hd
      · left
        simp only [Request.run, Call.run, run_fmap, put_run_live hf he,
          put_run_live (s := s.unbounded) hf he]
        exact ⟨by trivial, rfl, by trivial, by rw [keys_update]⟩
      · refine .inr ⟨k, Entry.fresh v (expiry now ttl) now, .answer .done, hd, ?_, ?_⟩
        · simp only [Request.run, Call.run, run_fmap, put_run_insert hd]
        · simp only [Request.run, Call.run, run_fmap, put_run_insert (dead k hd)]
    | replaceIfEqual k x v ttl =>
      left
      rcases live_or_dead s k now with ⟨e, hf, he⟩ | hd
      · simp only [Request.run, Call.run, run_fmap, replaceIfEqual_run_live hf he,
          replaceIfEqual_run_live (s := s.unbounded) hf he]
        split_ifs
        exacts [⟨by trivial, rfl, by trivial, by rw [keys_update]⟩,
          ⟨by trivial, rfl, by trivial, .refl _⟩]
      · simp only [Request.run, Call.run, run_fmap, replaceIfEqual_run_dead hd,
          replaceIfEqual_run_dead (dead k hd)]
        exact ⟨by trivial, rfl, by trivial, keys_erase⟩
    | removeIfEqual k x =>
      left
      rcases live_or_dead s k now with ⟨e, hf, he⟩ | hd
      · simp only [Request.run, Call.run, run_fmap, removeIfEqual_run_live hf he,
          removeIfEqual_run_live (s := s.unbounded) hf he]
        split_ifs
        exacts [⟨by trivial, rfl, by trivial, keys_erase⟩,
          ⟨by trivial, rfl, by trivial, .refl _⟩]
      · simp only [Request.run, Call.run, run_fmap, removeIfEqual_run_dead hd,
          removeIfEqual_run_dead (dead k hd)]
        exact ⟨by trivial, rfl, by trivial, keys_erase⟩
    | increment k b ttl =>
      rcases live_or_dead s k now with ⟨e, hf, he⟩ | hd
      · left
        simp only [Request.run, Call.run, run_fmap, increment_run_live hf he,
          increment_run_live (s := s.unbounded) hf he]
        cases parseCounter e.value with
        | none => exact ⟨by trivial, rfl, by trivial, .refl _⟩
        | some c =>
          by_cases ho : c + b < i64Min ∨ i64Max < c + b
          · simp only [ho, if_true]; exact ⟨by trivial, rfl, by trivial, .refl _⟩
          · simp only [ho, if_false]; exact ⟨by trivial, rfl, by trivial, by rw [keys_update]⟩
      · refine .inr ⟨k, Entry.fresh (counterBytes b) (expiry now ttl) now,
          .answer (.counter (.ok b)), hd, ?_, ?_⟩
        · simp only [Request.run, Call.run, run_fmap, increment_run_insert hd]
        · simp only [Request.run, Call.run, run_fmap, increment_run_insert (dead k hd)]
    | remove k =>
      left
      simp only [Request.run, Call.run, run_fmap, remove_run]
      exact ⟨by trivial, rfl, by trivial, keys_erase⟩
    | getExpiration k =>
      left
      simp only [Request.run, Call.run, run_fmap, expiration_run_fst, expiration_run]
      rcases live_or_dead s k now with ⟨e, hf, he⟩ | hd
      · rw [live_run_live hf he, live_run_live (s := s.unbounded) hf he]
        exact ⟨rfl, rfl, by trivial, .refl _⟩
      · rw [live_run_dead hd, live_run_dead (dead k hd)]
        exact ⟨rfl, rfl, by trivial, keys_erase⟩
    | setExpiration k d =>
      left
      rcases live_or_dead s k now with ⟨e, hf, he⟩ | hd
      · simp only [Request.run, Call.run, run_fmap, setExpiration_run_live hf he,
          setExpiration_run_live (s := s.unbounded) hf he]
        exact ⟨by trivial, rfl, by trivial, by rw [keys_update]⟩
      · simp only [Request.run, Call.run, run_fmap, setExpiration_run_dead hd,
          setExpiration_run_dead (dead k hd)]
        exact ⟨by trivial, rfl, by trivial, keys_erase⟩
    | removeAll ks =>
      left
      simp only [Request.run, Call.run, run_fmap, removeAll_run]
      exact ⟨by trivial, rfl, by trivial, keys_keep _⟩
    | removeByPrefix pre =>
      left
      simp only [Request.run, Call.run, run_fmap, removeByPrefix_run]
      exact ⟨by trivial, rfl, by trivial, keys_keep _⟩
    | flush =>
      left
      simp only [Request.run, Call.run, run_fmap, flush_run]
      exact ⟨by trivial, rfl, by trivial, List.nil_sublist _⟩
  | metadata k =>
    left
    simp only [Request.run, run_fmap, metadata_run]
    rcases live_or_dead s k now with ⟨e, hf, he⟩ | hd
    · rw [live_run_live hf he, live_run_live (s := s.unbounded) hf he]
      exact ⟨rfl, rfl, by trivial, .refl _⟩
    · rw [live_run_dead hd, live_run_dead (dead k hd)]
      exact ⟨rfl, rfl, by trivial, keys_erase⟩
  | sweep =>
    left
    simp only [Request.run, run_fmap, sweep_run]
    exact ⟨by trivial, rfl, by trivial, keys_keep _⟩

/-! ## Bounded caches over time -/

/-- A request on a cache `s` at `now` makes room as a bounded cache does: it replies what it
replies on `s` unbounded and leaves the same hits, misses and writes, and the same entries,
except that while it stores a key with no live entry after the entries `pre` (`new`), it keeps
all of `pre` or only its live entries (`es`) and evicts `vs` from them one at a time, leaving
`rest`; the evictions counter grows by the number of entries evicted, which is none but while
inserting. -/
def Request.MakesRoom (r : Request) (now : Stamp) (s : Store) : Prop :=
  ((r.run now).run s).1 = ((r.run now).run s.unbounded).1 ∧
    ∃ pre new es vs rest,
      ((r.run now).run s.unbounded).2.entries = pre ++ new ∧
      ((r.run now).run s).2 =
        { ((r.run now).run s.unbounded).2 with
            maxItems := s.maxItems, entries := rest ++ new,
            evictions := s.evictions + vs.length } ∧
      (es = pre ∨ es = pre.filter fun p => !p.2.isExpired now) ∧
      Evicts now es vs rest ∧ es.length = vs.length + rest.length ∧
      (new = [] ∧ es = pre ∧ vs = [] ∨ ∃ k e, new = [(k, e)] ∧ s.view now k = none)

/-- A cache as requests leave it under the bound `m`: keys stored once, at most `max m 1`
entries. -/
structure Store.Fits (m : Nat) (s : Store) : Prop where
  bound : s.maxItems = some m
  keyed : s.Keyed
  length_le : s.entries.length ≤ max m 1

namespace Store

variable {s : Store} {m : Nat} {k : String} {t : Stamp}

theorem find?_erase_self : (s.erase k).find? k = none := by simp [find?_erase]

theorem fits_empty : (empty (some m)).Fits m := ⟨rfl, List.nodup_nil, Nat.zero_le _⟩

theorem keyed_insert {es vs rest : List (String × Entry)} {e : Entry} (hk : s.Keyed)
    (hes : es = (s.erase k).entries ∨ es = (s.erase k).entries.filter fun p => !p.2.isExpired t)
    (hev : Evicts t es vs rest) :
    es.Sublist (s.erase k).entries ∧ ((rest ++ [(k, e)]).map (·.1)).Nodup := by
  have hsub : es.Sublist (s.erase k).entries := by
    rcases hes with rfl | rfl
    exacts [.refl _, List.filter_sublist]
  have hrest := hev.sublist.trans hsub
  refine ⟨hsub, ?_⟩
  rw [List.map_append, List.nodup_append]
  refine ⟨hk.erase.sublist (hrest.map _), List.nodup_singleton _, ?_⟩
  intro a ha b hb
  obtain ⟨p, hp, rfl⟩ := List.mem_map.1 ha
  simp only [List.map_cons, List.map_nil, List.mem_singleton] at hb
  subst hb
  have := List.of_mem_filter (hrest.subset hp)
  simpa using this

end Store

open Store in
/-- On a cache that keeps its keys once, a request makes room as a bounded cache does, and
keeps the cache within its bound. -/
theorem Request.run_bounded {s : Store} {m : Nat} (hs : s.Fits m) (r : Request) (now : Stamp) :
    r.MakesRoom now s ∧ ((r.run now).run s).2.Fits m := by
  rcases Request.run_cases r s now with ⟨h1, h2, hev, hkeys⟩ | ⟨k, e, a, hd, hb, hu⟩
  · -- the request ignores the bound: nothing is evicted, and keys only drop
    refine ⟨⟨h1, _, [], _, [], _, (List.append_nil _).symm, ?_, .inl rfl, .done _,
      (Nat.zero_add _).symm,
      .inl ⟨rfl, rfl, rfl⟩⟩, ⟨?_, hs.keyed.sublist hkeys, ?_⟩⟩
    · rw [h2] at hev ⊢; simp [← hev]
    · rw [h2]; exact hs.bound
    · exact Nat.le_trans (by simpa using hkeys.length_le) hs.length_le
  · -- the request inserts a key with no live entry into the cache less that key
    have hm : (s.erase k).maxItems = some m := hs.bound
    obtain ⟨es, vs, rest, hes, hev, hlen, hrun⟩ := insert_run_bounded (e := e) (t := now) hm
      find?_erase_self
    have hu' : (insert k e now).run (s.unbounded.erase k) =
        ((), { s.unbounded.erase k with
                 entries := (s.erase k).entries ++ [(k, e)], writes := s.writes + 1 }) :=
      insert_run rfl find?_erase_self
    obtain ⟨hsub, hnodup⟩ := keyed_insert (e := e) hs.keyed hes hev
    refine ⟨⟨by rw [hb, hu], (s.erase k).entries, [(k, e)], es, vs, rest, by rw [hu, hu'],
      by rw [hb, hu, hrun, hu']; rfl, hes, hev,
      hev.length_eq (hs.keyed.erase.sublist (hsub.map _)), .inr ⟨k, e, rfl, view_dead hd⟩⟩,
      ?_⟩
    rw [hb, hrun]
    exact ⟨hs.bound, hnodup, by simp only [List.length_append, List.length_singleton]; omega⟩

theorem Request.fits_runAll {s : Store} {m : Nat} (hs : s.Fits m) (rs : List (Request × Stamp)) :
    ((Request.runAll rs).run s).2.Fits m := by
  induction rs generalizing s with
  | nil => exact hs
  | cons r rs ih =>
    simp only [Request.runAll, List.mapM_cons, StateT.run_bind]
    exact ih (Request.run_bounded hs r.1 r.2).2

/-- Bounded size with least-recently-read eviction. In every cache that requests reach from an
empty cache bounded by `m`, at most `max m 1` entries are stored; and the next request replies
what it replies on the same cache unbounded and leaves what it leaves there, save that while
inserting a key with no live entry it may first drop the expired entries and then evicts, one
at a time, an entry read no later than every live entry left, counting every entry it evicts. -/
theorem eviction_least_recent (m : Nat) (rs : List (Request × Stamp)) (r : Request)
    (now : Stamp) :
    ((Request.runAll rs).run (Store.empty (some m))).2.entries.length ≤ max m 1 ∧
      r.MakesRoom now ((Request.runAll rs).run (Store.empty (some m))).2 := by
  have hs := Request.fits_runAll Store.fits_empty rs (m := m)
  exact ⟨hs.length_le, (Request.run_bounded hs r now).1⟩

/-- With room for two, a read keeps `a`, so storing `c` evicts `b`, and counts it. -/
example :
    let s := ((Request.runAll [(.call (.set "a" [1] none), ⟨1⟩), (.call (.set "b" [2] none), ⟨2⟩),
      (.call (.get "a"), ⟨3⟩), (.call (.set "c" [3] none), ⟨4⟩)]).run (Store.empty (some 2))).2
    s.entries.map (·.1) = ["a", "c"] ∧ s.evictions = 1 := by
  decide

end Backplane.Cache
