import Mathlib.Logic.Relation
import Backplane.Proofs.Cache.Store
import Backplane.Host.Locks

/-!
# Mutual exclusion of cache-backed locks

Cache-backed lock providers share one unbounded cache. Every call of a provider touches the
cache in one atomic operation at the instant it runs: an attempt of an acquire adds the token
under the resource's key `lock:{resource}` with the lease as time to live, a waiting acquire
reads how long the holder has left, a renewal replaces the token by itself with a new time to
live, a release removes the key when it holds the token, and a query reads whether the key is
live. Tasks interleave only between these operations, and the clock moves forward in whole
milliseconds of the calendar.

A world records, beside the cache and the clock, every lock an acquire handed out
(`Issued`): the lock as its latest renewal left it, and whether it was released. A grant is
*live* while it is not released and its lease has not run out.

`lock_exclusive` says that in every world reached from an empty cache, at most one grant per
resource is live; the key of a live grant holds its token, with the end of its lease as
expiry (none when that end is the last instant of the calendar); a resource reads as locked
exactly when it has a live grant; and renewing or releasing with a token that is not live is
turned down and leaves what every key reads as it was. It rests on the invariant
`World.Sound`: every entry of the cache is the entry of a grant that was not released, and
the key of every live grant holds its token.

That the cache is unbounded is part of the invariant. A cache that keeps a bounded number of
items evicts the least recently used key to make room, live or not, and the key of a live lock
goes with it (`bounded_cache_breaks_exclusion`).
-/

namespace Backplane.Lock

/-! ## Tokens as stored -/

theorem byteArray_toList_loop (bs : ByteArray) (i : Nat) (r : List UInt8) :
    ByteArray.toList.loop bs i r = r.reverse ++ bs.data.toList.drop i := by
  fun_induction ByteArray.toList.loop bs i r with
  | case1 i r h ih =>
    rw [ih]
    have hi : i < bs.data.size := h
    have hget : bs.get! i = bs.data[i] := by
      cases bs with
      | mk d => simp [ByteArray.get!, getElem!_pos d i hi]
    have hd : bs.data.toList.drop i = bs.data[i] :: bs.data.toList.drop (i + 1) := by
      rw [List.drop_eq_getElem_cons (by simpa using hi)]
      simp
    rw [hd, hget]
    simp
  | case2 i r h =>
    have : bs.data.toList.drop i = [] := by
      simp only [List.drop_eq_nil_iff, Array.length_toList]
      exact Nat.le_of_not_lt h
    simp [this]

theorem toUTF8_toList_inj {a b : String} (h : a.toUTF8.toList = b.toUTF8.toList) : a = b := by
  simp only [ByteArray.toList, byteArray_toList_loop, List.reverse_nil, List.nil_append,
    List.drop_zero] at h
  rw [← String.toByteArray_inj, ← String.toUTF8_eq_toByteArray, ← String.toUTF8_eq_toByteArray]
  cases ha : a.toUTF8 with
  | mk da =>
    cases hb : b.toUTF8 with
    | mk db =>
      rw [ha, hb] at h
      have hd : da = db := Array.toList_inj.1 h
      rw [hd]

theorem lockKey_inj {a b : String} (h : lockKey a = lockKey b) : a = b :=
  (String.append_right_inj "lock:").1 h

theorem ofMillis_lt_maxUtc {m : Int} (h : Stamp.ofMillis m ≤ Stamp.maxUtc) :
    Stamp.ofMillis m < Stamp.maxUtc := by
  change m * 1000000 ≤ (lastDay + 1) * Stamp.nanosPerDay - 1 at h
  change m * 1000000 < (lastDay + 1) * Stamp.nanosPerDay - 1
  simp only [Stamp.nanosPerDay] at h ⊢
  omega

/-! ## Grants and calls -/

/-- A lock an acquire handed out: the lock as its latest renewal left it, and whether it was
released. -/
structure Issued where
  lock : Grant
  released : Bool
  deriving Repr, DecidableEq

namespace Issued

/-- A grant is live at `t` while it is not released and its lease has not run out. -/
def LiveAt (g : Issued) (t : Stamp) : Prop := g.released = false ∧ t < g.lock.leaseExpiresAt

/-- An entry stores a grant: it holds the grant's token, with the end of its lease as expiry;
no expiry when that end is the last instant of the calendar. -/
def Stored (g : Issued) (e : Cache.Entry) : Prop :=
  e.value = g.lock.token.toUTF8.toList ∧
    (e.expiresAt = some g.lock.leaseExpiresAt ∨
      e.expiresAt = none ∧ g.lock.leaseExpiresAt = Stamp.maxUtc)

theorem Stored.of_eq {g : Issued} {e e' : Cache.Entry} (hs : g.Stored e) (hv : e.value = e'.value)
    (hx : e.expiresAt = e'.expiresAt) : g.Stored e' := by
  unfold Stored at hs ⊢
  rw [← hv, ← hx]
  exact hs

/-- The end of a lease agrees with the expiry the cache computes for the same time to live. -/
theorem expiry_matches {t : Stamp} {d : Duration} :
    Cache.expiry t (some d) = some (t.addOrMax d) ∨
      Cache.expiry t (some d) = none ∧ t.addOrMax d = Stamp.maxUtc := by
  unfold Cache.expiry Stamp.addOrMax
  cases h : t.addDuration? d <;> simp [h]

end Issued

/-- A call of a cache-backed provider, as the one atomic operation it makes on the cache. -/
inductive Call where
  /-- One attempt of an acquire: add the token under the resource's key for the lease. -/
  | acquire (resource token : String) (lease waited : Duration)
  /-- A waiting acquire reads how long the holder has left. -/
  | probe (resource : String)
  /-- Renew a lock for `ext` from now. -/
  | renew (l : Grant) (ext : Duration)
  /-- Release a lock. -/
  | release (l : Grant)
  /-- Whether a resource is locked. -/
  | isLocked (resource : String)

/-- A grant renewed at `t` for `ext`, when it holds the renewed token. -/
def renewGrant (token : String) (t : Stamp) (ext : Duration) (g : Issued) : Issued :=
  if g.lock.token = token then { g with lock := Provider.extended g.lock t ext } else g

/-- A grant released, when it holds the released token. -/
def releaseGrant (token : String) (g : Issued) : Issued :=
  if g.lock.token = token then { g with released := true } else g

/-- What a call at instant `t` does to the cache and to the grants. -/
def Call.run (t : Stamp) (c : Cache.Store) (gs : List Issued) : Call → Cache.Store × List Issued
  | .acquire resource token lease waited =>
    let r := (Cache.Store.add (lockKey resource) token.toUTF8.toList (some lease) t).run c
    (r.2, if r.1 then gs ++ [⟨⟨resource, token, t, t.addOrMax lease, waited, 0⟩, false⟩] else gs)
  | .probe resource => (((Cache.Store.expiration (lockKey resource) t).run c).2, gs)
  | .renew l ext =>
    let token := l.token.toUTF8.toList
    let r := (Cache.Store.replaceIfEqual (lockKey l.resource) token token (some ext) t).run c
    (r.2, if r.1 then gs.map (renewGrant l.token t ext) else gs)
  | .release l =>
    let r := (Cache.Store.removeIfEqual (lockKey l.resource) l.token.toUTF8.toList t).run c
    (r.2, if r.1 then gs.map (releaseGrant l.token) else gs)
  | .isLocked resource => (((Cache.Store.contains (lockKey resource) t).run c).2, gs)

theorem renewGrant_token {token : String} {t : Stamp} {ext : Duration} {g : Issued} :
    (renewGrant token t ext g).lock.token = g.lock.token := by
  unfold renewGrant; split <;> rfl

theorem renewGrant_of_ne {token : String} {t : Stamp} {ext : Duration} {g : Issued}
    (h : g.lock.token ≠ token) : renewGrant token t ext g = g := by
  simp [renewGrant, h]

theorem releaseGrant_token {token : String} {g : Issued} :
    (releaseGrant token g).lock.token = g.lock.token := by
  unfold releaseGrant; split <;> rfl

theorem releaseGrant_of_ne {token : String} {g : Issued} (h : g.lock.token ≠ token) :
    releaseGrant token g = g := by
  simp [releaseGrant, h]

/-- The shared cache, the wall clock in milliseconds since the epoch, and the locks handed
out so far. -/
structure World where
  cache : Cache.Store
  clock : Int
  grants : List Issued

namespace World

/-- The wall clock as an instant. -/
def now (w : World) : Stamp := Stamp.ofMillis w.clock

/-- An empty unbounded cache at `m` milliseconds. -/
def empty (m : Int) : World := ⟨Cache.Store.empty none, m, []⟩

/-- Make a call at the clock's instant. -/
def call (w : World) (c : Call) : World :=
  let r := c.run w.now w.cache w.grants
  { w with cache := r.1, grants := r.2 }

/-- The tokens of the locks handed out. -/
def tokens (w : World) : List String := w.grants.map (·.lock.token)

/-- A live grant of the world. -/
def Live (w : World) (g : Issued) : Prop := g ∈ w.grants ∧ g.LiveAt w.now

end World

/-- Whether a call may be made: every acquire tries with a token never handed out. -/
def Call.Fresh (w : World) : Call → Prop
  | .acquire _ token _ _ => token ∉ w.tokens
  | _ => True

/-- A step: the clock moves to a later whole millisecond of the calendar, or a call is
made. -/
inductive Step : World → World → Prop where
  | tick {w : World} {m : Int} (h : w.clock ≤ m) (hm : Stamp.ofMillis m ≤ Stamp.maxUtc) :
      Step w { w with clock := m }
  | call {w : World} (c : Call) (h : c.Fresh w) : Step w (w.call c)

/-- The worlds reached from an empty cache at a whole millisecond of the calendar. -/
def Reachable (w : World) : Prop :=
  ∃ m, Stamp.ofMillis m ≤ Stamp.maxUtc ∧ Relation.ReflTransGen Step (World.empty m) w

/-! ## The invariant -/

/-- Every entry of the cache stores a grant that was not released, under its resource's key;
the key of every live grant holds its token. -/
structure World.Sound (w : World) : Prop where
  unbounded : w.cache.maxItems = none
  tokens_nodup : w.tokens.Nodup
  clock_lt : w.now < Stamp.maxUtc
  stored : ∀ k e, (k, e) ∈ w.cache.entries →
    ∃ g ∈ w.grants, g.released = false ∧ k = lockKey g.lock.resource ∧ g.Stored e
  held : ∀ g ∈ w.grants, g.LiveAt w.now →
    ∃ e, w.cache.find? (lockKey g.lock.resource) = some e ∧ e.value = g.lock.token.toUTF8.toList

namespace World.Sound

variable {w : World} {g g' : Issued} {e : Cache.Entry}

theorem grant_eq (h : w.Sound) (hg : g ∈ w.grants) (hg' : g' ∈ w.grants)
    (hv : g.lock.token.toUTF8.toList = g'.lock.token.toUTF8.toList) : g = g' :=
  List.inj_on_of_nodup_map h.tokens_nodup hg hg' (toUTF8_toList_inj hv)

/-- The key of a live grant holds an entry that stores it and is live. -/
theorem stored_of_live (h : w.Sound) (hg : w.Live g) :
    ∃ e, w.cache.find? (lockKey g.lock.resource) = some e ∧ g.Stored e ∧
      e.isExpired w.now = false := by
  obtain ⟨e, hf, hv⟩ := h.held g hg.1 hg.2
  obtain ⟨g', hg', -, hk, hs⟩ := h.stored _ e (Cache.Store.mem_of_find? hf)
  have := h.grant_eq hg.1 hg' (hv.symm.trans hs.1)
  subst this
  refine ⟨e, hf, hs, ?_⟩
  rcases hs.2 with hx | ⟨hx, -⟩
  · have hlt := hg.2.2
    simp only [Cache.Entry.isExpired, hx, decide_eq_false_iff_not]
    exact fun hle => absurd (Int.lt_of_lt_of_le hlt hle) (Int.lt_irrefl _)
  · simp [Cache.Entry.isExpired, hx]

/-- A live entry under a resource's key stores a live grant of that resource. -/
theorem live_of_entry (h : w.Sound) {resource : String}
    (hf : w.cache.find? (lockKey resource) = some e) (he : e.isExpired w.now = false) :
    ∃ g, w.Live g ∧ g.lock.resource = resource ∧ g.Stored e := by
  obtain ⟨g, hg, hr, hk, hs⟩ := h.stored _ e (Cache.Store.mem_of_find? hf)
  refine ⟨g, ⟨hg, hr, ?_⟩, (lockKey_inj hk).symm, hs⟩
  rcases hs.2 with hx | ⟨-, hmax⟩
  · simp only [Cache.Entry.isExpired, hx, decide_eq_false_iff_not] at he
    exact Int.lt_of_not_ge he
  · rw [hmax]; exact h.clock_lt

/-- The live entry under a lock's key that holds the lock's token stores the one grant holding
that token, and every other live grant has a key of its own. -/
theorem holder_of_entry (h : w.Sound) {l : Grant} (hf : w.cache.find? (lockKey l.resource) = some e)
    (he : e.isExpired w.now = false) (hv : e.value = l.token.toUTF8.toList) :
    ∃ g, w.Live g ∧ g.lock.resource = l.resource ∧ g.lock.token = l.token ∧ g.Stored e ∧
      (∀ g' ∈ w.grants, g'.lock.token = l.token → g' = g) ∧
      (∀ g', w.Live g' → g'.lock.token ≠ l.token → lockKey g'.lock.resource ≠ lockKey l.resource) := by
  obtain ⟨g, hlive, hres, hs⟩ := h.live_of_entry hf he
  have htok : g.lock.token = l.token := toUTF8_toList_inj (hs.1.symm.trans hv)
  refine ⟨g, hlive, hres, htok, hs, fun g' hg' ht => h.grant_eq hg' hlive.1 (by rw [ht, htok]),
    fun g' hl' ht hk => ?_⟩
  -- a grant under the same key would be stored by the same entry, so hold the same token
  obtain ⟨e', hf', hs', -⟩ := h.stored_of_live hl'
  rw [hk, hf, Option.some.injEq] at hf'
  subst hf'
  exact ht (toUTF8_toList_inj (hs'.1.symm.trans hv))

theorem of_keeps (h : w.Sound) {c : Cache.Store} (hk : Cache.Store.Keeps w.now w.cache c) :
    ({ w with cache := c } : World).Sound where
  unbounded := hk.1.trans h.unbounded
  tokens_nodup := h.tokens_nodup
  clock_lt := h.clock_lt
  stored k e' he' := by
    obtain ⟨e, he, hv, hx⟩ := hk.2.1 k e' he'
    obtain ⟨g, hg, hr, hkey, hs⟩ := h.stored k e he
    exact ⟨g, hg, hr, hkey, hs.of_eq hv hx⟩
  held g hg hl := by
    obtain ⟨e, hf, hs, hne⟩ := h.stored_of_live ⟨hg, hl⟩
    obtain ⟨e', hf', hv, -⟩ := hk.2.2 _ e hf hne
    exact ⟨e', hf', hv.trans hs.1⟩

theorem empty {m : Int} (hm : Stamp.ofMillis m ≤ Stamp.maxUtc) : (World.empty m).Sound where
  unbounded := rfl
  tokens_nodup := List.nodup_nil
  clock_lt := ofMillis_lt_maxUtc hm
  stored k e he := by simp [World.empty, Cache.Store.empty] at he
  held g hg := by simp [World.empty] at hg

/-- Time passing keeps the invariant: a grant live later was live before. -/
theorem tick (h : w.Sound) {m : Int} (hle : w.clock ≤ m) (hm : Stamp.ofMillis m ≤ Stamp.maxUtc) :
    ({ w with clock := m } : World).Sound where
  unbounded := h.unbounded
  tokens_nodup := h.tokens_nodup
  clock_lt := ofMillis_lt_maxUtc hm
  stored := h.stored
  held g hg hl := by
    refine h.held g hg ⟨hl.1, ?_⟩
    have hmono : w.now ≤ Stamp.ofMillis m := by
      change w.clock * 1000000 ≤ m * 1000000
      omega
    exact Int.lt_of_le_of_lt hmono hl.2

/-- An acquire adds its token only when the key has no live entry, and then grants the lock
whose lease ends where the new entry expires. -/
theorem call_acquire (h : w.Sound) {resource token : String} {lease waited : Duration}
    (hfresh : token ∉ w.tokens) : (w.call (.acquire resource token lease waited)).Sound := by
  by_cases hd : ∀ e, w.cache.find? (lockKey resource) = some e → e.isExpired w.now = true
  · rw [World.call, Call.run, Cache.Store.add_run_dead hd h.unbounded]
    simp only [if_true]
    have hfk : (w.cache.erase (lockKey resource)).find? (lockKey resource) = none := by
      simp [Cache.Store.find?_erase]
    refine ⟨h.unbounded, ?_, h.clock_lt, fun k e he => ?_, fun g hg hl => ?_⟩
    · simp only [World.tokens, List.map_append, List.map_cons, List.map_nil]
      rw [← List.concat_eq_append]
      exact h.tokens_nodup.concat hfresh
    · -- the new entry stores the new grant; the others were there before
      simp only [List.mem_append, List.mem_singleton, Prod.mk.injEq] at he
      rcases he with he | ⟨rfl, rfl⟩
      · obtain ⟨he, -⟩ := Cache.Store.mem_erase.1 he
        obtain ⟨g, hg, hr, hk, hs⟩ := h.stored k e he
        exact ⟨g, List.mem_append_left _ hg, hr, hk, hs⟩
      · exact ⟨_, List.mem_append_right _ (List.mem_singleton_self _), rfl, rfl, rfl,
          Issued.expiry_matches⟩
    · -- a live grant of another resource keeps its entry: its key was live, this one was not
      simp only [List.mem_append, List.mem_singleton] at hg
      rcases hg with hg | rfl
      · obtain ⟨e, hf, -, hne⟩ := h.stored_of_live ⟨hg, hl⟩
        have hk : lockKey g.lock.resource ≠ lockKey resource := by
          intro hk; rw [hk] at hf; simp [hd e hf] at hne
        obtain ⟨e', hf', hv⟩ := h.held g hg hl
        refine ⟨e', ?_, hv⟩
        rw [Cache.Store.find?_append hfk]
        simp [hk, Cache.Store.find?_erase, hf']
      · refine ⟨Cache.Entry.fresh token.toUTF8.toList (Cache.expiry w.now (some lease)) w.now, ?_,
          rfl⟩
        rw [Cache.Store.find?_append hfk, if_pos rfl]
  · push Not at hd
    obtain ⟨e, hf, he⟩ := hd
    rw [World.call, Call.run, Cache.Store.add_run_live hf (by simpa using he)]
    exact h

/-- A renewal rewrites the entry of the live grant holding its token, and moves the end of
that grant's lease to the entry's new expiry; without such a grant it changes nothing. -/
theorem call_renew (h : w.Sound) {l : Grant} {ext : Duration} : (w.call (.renew l ext)).Sound := by
  by_cases hd : ∀ e, w.cache.find? (lockKey l.resource) = some e → e.isExpired w.now = true
  · rw [World.call, Call.run, Cache.Store.replaceIfEqual_run_dead hd]
    exact h.of_keeps (.erase hd)
  push Not at hd
  obtain ⟨e, hf, he⟩ := hd
  have he' : e.isExpired w.now = false := by simpa using he
  rw [World.call, Call.run, Cache.Store.replaceIfEqual_run_live hf he']
  by_cases hv : e.value = l.token.toUTF8.toList
  swap
  · simp only [hv, if_false]; exact h
  simp only [hv, if_true]
  obtain ⟨g, hlive, hres, htok, -, huniq, hother⟩ := h.holder_of_entry hf he' hv
  refine ⟨h.unbounded, ?_, h.clock_lt, fun k e' he' => ?_, fun g'' hg'' hl => ?_⟩
  · simpa [World.tokens, List.map_map, Function.comp_def, renewGrant_token] using h.tokens_nodup
  · rcases Cache.Store.mem_update he' with ⟨he', hk⟩ | ⟨rfl, rfl⟩
    · obtain ⟨g', hg', hr, hkey, hs'⟩ := h.stored k e' he'
      have hne : g'.lock.token ≠ l.token := fun ht => hk (by rw [hkey, huniq g' hg' ht, hres])
      exact ⟨g', List.mem_map.2 ⟨g', hg', renewGrant_of_ne hne⟩, hr, hkey, hs'⟩
    · refine ⟨renewGrant l.token w.now ext g, List.mem_map_of_mem hlive.1, ?_, ?_, ?_⟩
      · simp [renewGrant, htok, hlive.2.1]
      · simp [renewGrant, htok, Provider.extended, hres]
      · simp only [renewGrant, htok, if_true]
        exact ⟨by simp [Cache.Entry.write, Provider.extended, htok], Issued.expiry_matches⟩
  · obtain ⟨g', hg', rfl⟩ := List.mem_map.1 hg''
    by_cases ht : g'.lock.token = l.token
    · obtain rfl := huniq g' hg' ht
      refine ⟨e.write l.token.toUTF8.toList (Cache.expiry w.now (some ext)) w.now, ?_, ?_⟩
      · simp [renewGrant, htok, Provider.extended, hres, Cache.Store.find?_update, hf]
      · simp [renewGrant, htok, Provider.extended, Cache.Entry.write]
    · rw [renewGrant_of_ne ht] at hl ⊢
      obtain ⟨e3, hf3, hv3⟩ := h.held g' hg' hl
      exact ⟨e3, by simp [Cache.Store.find?_update, hother g' ⟨hg', hl⟩ ht, hf3], hv3⟩

/-- A release removes the entry of the live grant holding its token and marks that grant
released; without such a grant it changes nothing. -/
theorem call_release (h : w.Sound) {l : Grant} : (w.call (.release l)).Sound := by
  by_cases hd : ∀ e, w.cache.find? (lockKey l.resource) = some e → e.isExpired w.now = true
  · rw [World.call, Call.run, Cache.Store.removeIfEqual_run_dead hd]
    exact h.of_keeps (.erase hd)
  push Not at hd
  obtain ⟨e, hf, he⟩ := hd
  have he' : e.isExpired w.now = false := by simpa using he
  rw [World.call, Call.run, Cache.Store.removeIfEqual_run_live hf he']
  by_cases hv : e.value = l.token.toUTF8.toList
  swap
  · simp only [hv, if_false]; exact h
  simp only [hv, if_true]
  obtain ⟨g, -, hres, -, -, huniq, hother⟩ := h.holder_of_entry hf he' hv
  refine ⟨h.unbounded, ?_, h.clock_lt, fun k e' he' => ?_, fun g'' hg'' hl => ?_⟩
  · simpa [World.tokens, List.map_map, Function.comp_def, releaseGrant_token] using h.tokens_nodup
  · obtain ⟨he', hk⟩ := Cache.Store.mem_erase.1 he'
    obtain ⟨g', hg', hr, hkey, hs'⟩ := h.stored k e' he'
    have hne : g'.lock.token ≠ l.token := fun ht => hk (by rw [hkey, huniq g' hg' ht, hres])
    exact ⟨g', List.mem_map.2 ⟨g', hg', releaseGrant_of_ne hne⟩, hr, hkey, hs'⟩
  · obtain ⟨g', hg', rfl⟩ := List.mem_map.1 hg''
    by_cases ht : g'.lock.token = l.token
    · simp [releaseGrant, ht, Issued.LiveAt] at hl
    · rw [releaseGrant_of_ne ht] at hl ⊢
      obtain ⟨e3, hf3, hv3⟩ := h.held g' hg' hl
      exact ⟨e3, by simp [Cache.Store.find?_erase, hother g' ⟨hg', hl⟩ ht, hf3], hv3⟩

theorem call_probe (h : w.Sound) {resource : String} : (w.call (.probe resource)).Sound := by
  rw [World.call, Call.run, Cache.Store.expiration_run]
  exact h.of_keeps Cache.Store.keeps_live

theorem call_isLocked (h : w.Sound) {resource : String} : (w.call (.isLocked resource)).Sound := by
  rw [World.call, Call.run, Cache.Store.contains_run]
  exact h.of_keeps Cache.Store.keeps_read

theorem exclusive (h : w.Sound) (h₁ : w.Live g) (h₂ : w.Live g')
    (hr : g.lock.resource = g'.lock.resource) : g = g' := by
  obtain ⟨e₁, hf₁, hs₁, -⟩ := h.stored_of_live h₁
  obtain ⟨e₂, hf₂, hs₂, -⟩ := h.stored_of_live h₂
  rw [hr, hf₂, Option.some.injEq] at hf₁
  subst hf₁
  exact h.grant_eq h₁.1 h₂.1 (hs₁.1.symm.trans hs₂.1)

theorem value_ne (h : w.Sound) {l : Grant} (hn : ∀ g, w.Live g → g.lock.token ≠ l.token)
    (hf : w.cache.find? (lockKey l.resource) = some e) (he : e.isExpired w.now = false) :
    e.value ≠ l.token.toUTF8.toList := by
  intro hv
  obtain ⟨g, hlive, -, hs⟩ := h.live_of_entry hf he
  exact hn g hlive (toUTF8_toList_inj (hs.1.symm.trans hv))

end World.Sound

variable {w w' : World}

theorem Step.sound (hs : Step w w') (h : w.Sound) : w'.Sound := by
  cases hs with
  | tick hle hm => exact h.tick hle hm
  | call c hf =>
    cases c with
    | acquire resource token lease waited => exact h.call_acquire hf
    | probe resource => exact h.call_probe
    | renew l ext => exact h.call_renew
    | release l => exact h.call_release
    | isLocked resource => exact h.call_isLocked

theorem Reachable.sound (hw : Reachable w) : w.Sound := by
  obtain ⟨m, hm, hr⟩ := hw
  induction hr with
  | refl => exact World.Sound.empty hm
  | tail _ hs ih => exact hs.sound ih

/-- Mutual exclusion of cache-backed locks. In every world reached from an empty cache, at
most one grant per resource is live; the key of a live grant holds its token, with the end of
its lease as expiry (none when the lease ends at the last instant of the calendar); a resource
reads as locked exactly when some grant of it is live; and a renewal or a release with a
token no live grant holds is turned down, leaves the grants as they were, and changes what
no key reads. -/
theorem lock_exclusive (hw : Reachable w) :
    (∀ g₁ g₂, w.Live g₁ → w.Live g₂ → g₁.lock.resource = g₂.lock.resource → g₁ = g₂) ∧
    (∀ g, w.Live g → ∃ e, w.cache.find? (lockKey g.lock.resource) = some e ∧ g.Stored e) ∧
    (∀ resource, ((Cache.Store.contains (lockKey resource) w.now).run w.cache).1 = true ↔
      ∃ g, w.Live g ∧ g.lock.resource = resource) ∧
    (∀ l : Grant, (∀ g, w.Live g → g.lock.token ≠ l.token) → ∀ ext,
      ((Cache.Store.replaceIfEqual (lockKey l.resource) l.token.toUTF8.toList
          l.token.toUTF8.toList (some ext) w.now).run w.cache).1 = false ∧
      ((Cache.Store.removeIfEqual (lockKey l.resource) l.token.toUTF8.toList w.now).run
          w.cache).1 = false ∧
      (w.call (.renew l ext)).grants = w.grants ∧ (w.call (.release l)).grants = w.grants ∧
      ∀ k, ((Cache.Store.live k w.now).run (w.call (.renew l ext)).cache).1 =
          ((Cache.Store.live k w.now).run w.cache).1 ∧
        ((Cache.Store.live k w.now).run (w.call (.release l)).cache).1 =
          ((Cache.Store.live k w.now).run w.cache).1) := by
  have h := hw.sound
  refine ⟨fun g₁ g₂ h₁ h₂ hr => h.exclusive h₁ h₂ hr,
    fun g hg => (h.stored_of_live hg).imp fun e he => ⟨he.1, he.2.1⟩,
    fun resource => ?_, fun l hn ext => ?_⟩
  · rw [Cache.Store.contains_run]
    by_cases hd : ∀ e, w.cache.find? (lockKey resource) = some e → e.isExpired w.now = true
    · -- no live entry: no live grant either, since its entry would be live
      rw [Cache.Store.read_run_dead hd]
      simp only [Option.isSome_none, Bool.false_eq_true, false_iff, not_exists, not_and]
      intro g hg hr
      obtain ⟨e, hf, -, hne⟩ := h.stored_of_live hg
      rw [hr] at hf
      simp [hd e hf] at hne
    · push Not at hd
      obtain ⟨e, hf, he⟩ := hd
      have he' : e.isExpired w.now = false := by simpa using he
      rw [Cache.Store.read_run_live hf he']
      obtain ⟨g, hg, hr, -⟩ := h.live_of_entry hf he'
      simpa using ⟨g, hg, hr⟩
  · by_cases hd : ∀ e, w.cache.find? (lockKey l.resource) = some e → e.isExpired w.now = true
    · -- no live entry: both calls only drop an expired one
      simp [World.call, Call.run, Cache.Store.replaceIfEqual_run_dead hd,
        Cache.Store.removeIfEqual_run_dead hd, Cache.Store.live_run_erase hd]
    · -- a live entry holding another token: both calls change nothing
      push Not at hd
      obtain ⟨e, hf, he⟩ := hd
      have he' : e.isExpired w.now = false := by simpa using he
      have hv := h.value_ne hn hf he'
      simp only [World.call, Call.run, Cache.Store.replaceIfEqual_run_live hf he',
        Cache.Store.removeIfEqual_run_live hf he', if_neg hv]
      simp

/-- One acquire on an empty cache: its lock is live, the resource reads as locked, and the
lock is the only live one of its resource. -/
theorem lock_exclusive_acquired :
    let w := (World.empty 1700000000000).call
      (.acquire "r" "k" (Duration.ofMillis 20000) (Duration.ofMillis 0))
    Reachable w ∧ ((Cache.Store.contains (lockKey "r") w.now).run w.cache).1 = true ∧
      ∀ g, w.Live g → g.lock.resource = "r" → g.lock.token = "k" := by
  intro w
  have hw : Reachable w :=
    ⟨1700000000000, by decide,
      .single (Step.call _ (by simp [Call.Fresh, World.tokens, World.empty]))⟩
  let g₀ : Issued := ⟨⟨"r", "k", Stamp.ofMillis 1700000000000, Stamp.ofMillis 1700000020000,
    Duration.ofMillis 0, 0⟩, false⟩
  have hg₀ : w.Live g₀ := by
    unfold World.Live Issued.LiveAt
    decide
  obtain ⟨hex, -, hlocked, -⟩ := lock_exclusive hw
  refine ⟨hw, (hlocked "r").2 ⟨g₀, hg₀, rfl⟩, fun g hg hr => ?_⟩
  rw [hex g g₀ hg hg₀ hr]

/-- Over a cache that keeps one item, an acquire of another resource evicts the key of a live
lock, and the next acquire of its resource is granted: two live locks of one resource. -/
theorem bounded_cache_breaks_exclusion :
    let w₀ : World := ⟨Cache.Store.empty (some 1), 1700000000000, []⟩
    let w := ((w₀.call (.acquire "r" "k1" (Duration.ofMillis 60000) Duration.zero)).call
      (.acquire "s" "k2" (Duration.ofMillis 60000) Duration.zero)).call
      (.acquire "r" "k3" (Duration.ofMillis 60000) Duration.zero)
    Relation.ReflTransGen Step w₀ w ∧
      ∃ g₁ g₂, w.Live g₁ ∧ w.Live g₂ ∧ g₁.lock.resource = g₂.lock.resource ∧ g₁ ≠ g₂ := by
  intro w₀ w
  -- every acquire tries a token never handed out before
  have hrun : Relation.ReflTransGen Step w₀ w :=
    .tail (.tail (.single (Step.call _ (by simp only [Call.Fresh]; decide))) (Step.call _ (by simp only [Call.Fresh]; decide)))
      (Step.call _ (by simp only [Call.Fresh]; decide))
  let lease (token : String) : Issued := ⟨⟨"r", token, Stamp.ofMillis 1700000000000,
    Stamp.ofMillis 1700000060000, Duration.zero, 0⟩, false⟩
  refine ⟨hrun, lease "k1", lease "k3", ?_, ?_, rfl, by decide⟩
  · unfold World.Live Issued.LiveAt
    decide
  · unfold World.Live Issued.LiveAt
    decide

end Backplane.Lock
