import Mathlib.Data.Set.Card
import Backplane.Proofs.Cache.Store

/-!
# The unbounded cache as a map of live values

At an instant, what a cache holds is a map from keys to their live values with their expiries
(`Store.view`): an entry whose expiry has come is absent, whether or not it was dropped yet.
`Call.spec` says what each operation of the cache interface does to such a map and what it
answers; `Call.run` is the operation of the cache.

`run_refines` says that on an unbounded cache whose keys are stored once, every operation
leaves the map the specification leaves and answers what it answers, with one exception: a
prefix removal and a flush count the expired entries they drop beside the live ones
(`Call.unswept`). `removeByPrefix_counts_expired` shows the two answers apart. Every
operation keeps a cache unbounded with its keys stored once (`keyed_run`), so the refinement
holds at every store that operations reach from an empty one (`keyed_runAll`).
-/

namespace Backplane.Cache

/-! ## Maps of live values -/

/-- A value is live at `now` when it never expires or expires after `now`. -/
def Value.liveAt (v : Value) (now : Stamp) : Bool :=
  match v.expiresAt with
  | some t => decide (now < t)
  | none => true

/-- What a cache holds at an instant: the live value of each key. -/
abbrev TtlMap := String → Option Value

namespace TtlMap

/-- The map with a value written under a key; a value that is not live is absent at once. -/
def write (m : TtlMap) (k : String) (v : Value) (now : Stamp) : TtlMap :=
  fun k' => if k' = k then (if v.liveAt now then some v else none) else m k'

/-- The map without the keys a test picks. -/
def drop (m : TtlMap) (p : String → Bool) : TtlMap := fun k => if p k then none else m k

/-- The number of keys a test picks that hold a value. -/
noncomputable def count (m : TtlMap) (p : String → Bool) : Nat := {k | (m k).isSome ∧ p k}.ncard

end TtlMap

/-! ## Operations and their specification -/

/-- An operation of the cache interface, with its arguments. -/
inductive Call where
  | get (key : String)
  | add (key : String) (value : Bytes) (ttl : Option Duration)
  | set (key : String) (value : Bytes) (ttl : Option Duration)
  | replaceIfEqual (key : String) (expected value : Bytes) (ttl : Option Duration)
  | removeIfEqual (key : String) (expected : Bytes)
  | increment (key : String) (by_ : Int) (ttl : Option Duration)
  | remove (key : String)
  | contains (key : String)
  | getExpiration (key : String)
  | setExpiration (key : String) (ttl : Duration)
  | removeAll (keys : List String)
  | removeByPrefix (pre : String)
  | flush

/-- What an operation answers. -/
inductive Answer where
  | value (v : Option Value)
  | flag (b : Bool)
  | done
  | counter (r : Except Store.CounterFault Int)
  | remaining (d : Option Duration)
  | count (n : Nat)
  deriving DecidableEq

/-- An answer with `n` more counted, when it is a count. -/
def Answer.addCount : Answer → Nat → Answer
  | .count c, n => .count (c + n)
  | a, _ => a

namespace Call

/-- An operation on a cache at `now`. -/
def run (now : Stamp) : Call → Op Answer
  | .get k => .value <$> Store.read k now
  | .add k v ttl => .flag <$> Store.add k v ttl now
  | .set k v ttl => (fun _ => .done) <$> Store.put k v ttl now
  | .replaceIfEqual k e v ttl => .flag <$> Store.replaceIfEqual k e v ttl now
  | .removeIfEqual k e => .flag <$> Store.removeIfEqual k e now
  | .increment k b ttl => .counter <$> Store.increment k b ttl now
  | .remove k => .flag <$> Store.remove k now
  | .contains k => .flag <$> Store.contains k now
  | .getExpiration k => .remaining <$> Store.expiration k now
  | .setExpiration k ttl => .flag <$> Store.setExpiration k ttl now
  | .removeAll ks => .count <$> Store.removeAll ks now
  | .removeByPrefix pre => .count <$> Store.removeByPrefix pre
  | .flush => .count <$> Store.flush

/-- Operations one after the other, each at its instant, with their answers in order. -/
def runAll (cs : List (Call × Stamp)) : Op (List Answer) := cs.mapM fun c => c.1.run c.2

/-- What an operation at `now` answers and leaves, over the live values `m`: writes replace
the live value, a counter starts from the live value or from zero, conditional writes and
removals test the live value, and removals count the live keys they remove. -/
noncomputable def spec (now : Stamp) (m : TtlMap) : Call → Answer × TtlMap
  | .get k => (.value (m k), m)
  | .add k v ttl =>
    match m k with
    | some _ => (.flag false, m)
    | none => (.flag true, m.write k ⟨v, expiry now ttl⟩ now)
  | .set k v ttl => (.done, m.write k ⟨v, expiry now ttl⟩ now)
  | .replaceIfEqual k e v ttl =>
    match m k with
    | some x => if x.value = e then (.flag true, m.write k ⟨v, expiry now ttl⟩ now) else (.flag false, m)
    | none => (.flag false, m)
  | .removeIfEqual k e =>
    match m k with
    | some x => if x.value = e then (.flag true, m.drop (· == k)) else (.flag false, m)
    | none => (.flag false, m)
  | .increment k b ttl =>
    match m k with
    | some x =>
      match Store.parseCounter x.value with
      | none => (.counter (.error .notANumber), m)
      | some c =>
        if c + b < Store.i64Min ∨ Store.i64Max < c + b then (.counter (.error .overflow), m)
        else (.counter (.ok (c + b)), m.write k
          ⟨Store.counterBytes (c + b), if ttl.isSome then expiry now ttl else x.expiresAt⟩ now)
    | none => (.counter (.ok b), m.write k ⟨Store.counterBytes b, expiry now ttl⟩ now)
  | .remove k => (.flag (m k).isSome, m.drop (· == k))
  | .contains k => (.flag (m k).isSome, m)
  | .getExpiration k => (.remaining ((m k).bind (·.remaining now)), m)
  | .setExpiration k ttl =>
    match m k with
    | some x => (.flag true, m.write k ⟨x.value, expiry now (some ttl)⟩ now)
    | none => (.flag false, m)
  | .removeAll ks => (.count (ks.toFinset.filter fun k => (m k).isSome).card, m.drop (· ∈ ks))
  | .removeByPrefix pre => (.count (m.count (·.startsWith pre)), m.drop (·.startsWith pre))
  | .flush => (.count (m.count fun _ => true), fun _ => none)

/-- The stored entries an operation takes beyond the live ones: the expired entries not yet
dropped, among those a prefix removal or a flush takes. -/
def unswept (s : Store) (now : Stamp) : Call → Nat
  | .removeByPrefix pre => (s.entries.filter fun p => p.1.startsWith pre && p.2.isExpired now).length
  | .flush => (s.entries.filter fun p => p.2.isExpired now).length
  | _ => 0

end Call

namespace Store

/-- The live values of a cache at `now`. -/
def view (s : Store) (now : Stamp) : TtlMap := fun k =>
  (s.find? k).bind fun e => if e.isExpired now then none else some ⟨e.value, e.expiresAt⟩

/-- Every key is stored once, as in a hash map. -/
def Keyed (s : Store) : Prop := (s.entries.map (·.1)).Nodup

variable {s : Store} {k k' : String} {t : Stamp} {e : Entry}

/-! ## The view -/

theorem liveAt_eq_not_isExpired : (⟨e.value, e.expiresAt⟩ : Value).liveAt t = !e.isExpired t := by
  unfold Value.liveAt Entry.isExpired
  cases e.expiresAt with
  | none => rfl
  | some u =>
    show decide (t < u) = !decide (u ≤ t)
    by_cases h : t < u
    · have : ¬ u ≤ t := Int.not_le.2 h
      simp [h, this]
    · have : u ≤ t := Int.not_lt.1 h
      simp [h, this]

theorem view_live (hf : s.find? k = some e) (he : e.isExpired t = false) :
    s.view t k = some ⟨e.value, e.expiresAt⟩ := by
  simp [view, hf, he]

theorem view_dead (hd : ∀ e, s.find? k = some e → e.isExpired t = true) : s.view t k = none := by
  cases h : s.find? k with
  | none => simp [view, h]
  | some e => simp [view, h, hd e h]

theorem live_or_dead (s : Store) (k : String) (t : Stamp) :
    (∃ e, s.find? k = some e ∧ e.isExpired t = false) ∨
      ∀ e, s.find? k = some e → e.isExpired t = true := by
  by_cases hd : ∀ e, s.find? k = some e → e.isExpired t = true
  · exact .inr hd
  · push Not at hd
    obtain ⟨e, hf, he⟩ := hd
    exact .inl ⟨e, hf, by simpa using he⟩

theorem view_erase : (s.erase k).view t = (s.view t).drop (· == k) := by
  funext k'
  by_cases h : k' = k <;> simp [view, TtlMap.drop, find?_erase, h]

theorem view_erase_dead (hd : ∀ e, s.find? k = some e → e.isExpired t = true) :
    (s.erase k).view t = s.view t := by
  rw [view_erase]
  funext k'
  by_cases h : k' = k
  · subst h; simp [TtlMap.drop, view_dead hd]
  · simp [TtlMap.drop, h]

theorem view_update (hf : (s.find? k).isSome) {e' : Entry} :
    (s.update k e').view t = (s.view t).write k ⟨e'.value, e'.expiresAt⟩ t := by
  funext k'
  by_cases h : k' = k
  · subst h
    obtain ⟨e, he⟩ := Option.isSome_iff_exists.1 hf
    rw [TtlMap.write, if_pos rfl, liveAt_eq_not_isExpired]
    cases hx : e'.isExpired t <;> simp [view, find?_update, he, hx]
  · simp [view, TtlMap.write, find?_update, h]

theorem view_append (hf : s.find? k = none) {n : Nat} :
    ({ s with entries := s.entries ++ [(k, e)], writes := n } : Store).view t =
      (s.view t).write k ⟨e.value, e.expiresAt⟩ t := by
  funext k'
  by_cases h : k' = k
  · subst h
    rw [TtlMap.write, if_pos rfl, liveAt_eq_not_isExpired]
    cases hx : e.isExpired t <;> simp [view, find?_append hf, hx]
  · simp [view, TtlMap.write, find?_append hf, h]

theorem find?_of_mem (hk : s.Keyed) (h : (k, e) ∈ s.entries) : s.find? k = some e := by
  cases hf : s.find? k with
  | none =>
    simp only [find?, Option.map_eq_none_iff, List.find?_eq_none] at hf
    simpa using hf _ h
  | some e' =>
    have hm := mem_of_find? hf
    have := List.inj_on_of_nodup_map hk hm h rfl
    simp only [Prod.mk.injEq, true_and] at this
    rw [this]

/-- The live keys a test picks are counted by the live entries it picks. -/
theorem count_view (hk : s.Keyed) (q : String → Bool) :
    (s.view t).count q = (s.entries.filter fun p => q p.1 && !p.2.isExpired t).length := by
  let L := (s.entries.filter fun p => q p.1 && !p.2.isExpired t).map (·.1)
  have hL : L.Nodup := hk.sublist (List.filter_sublist.map _)
  have hset : {k | (s.view t k).isSome ∧ q k} = (L.toFinset : Set String) := by
    ext k
    simp only [Finset.mem_coe, List.mem_toFinset, L, List.mem_map, List.mem_filter,
      Bool.and_eq_true, Bool.not_eq_true']
    constructor
    · rintro ⟨hv, hq⟩
      cases hf : s.find? k with
      | none => simp [view, hf] at hv
      | some e =>
        have he : e.isExpired t = false := by
          cases hx : e.isExpired t <;> simp_all [view]
        exact ⟨(k, e), ⟨mem_of_find? hf, hq, he⟩, rfl⟩
    · rintro ⟨⟨k', e⟩, ⟨hm, hq, he⟩, rfl⟩
      exact ⟨by simp [view_live (find?_of_mem hk hm) he], hq⟩
  rw [TtlMap.count, hset, Set.ncard_coe_finset, List.toFinset_card_of_nodup hL, List.length_map]

/-! ## Each operation -/

section run

variable {v : Bytes} {ttl : Option Duration}

theorem put_run_live (hf : s.find? k = some e) (he : e.isExpired t = false) :
    (put k v ttl t).run s = ((), { s.update k (e.write v (expiry t ttl) t) with writes := s.writes + 1 }) := by
  simp [put, live, hf, he]; rfl

theorem put_run_dead (hd : ∀ e, s.find? k = some e → e.isExpired t = true) (hu : s.maxItems = none) :
    (put k v ttl t).run s =
      ((), { s.erase k with
              entries := (s.erase k).entries ++ [(k, Entry.fresh v (expiry t ttl) t)],
              writes := s.writes + 1 }) := by
  have hf : (s.erase k).find? k = none := by simp [find?_erase]
  cases h : s.find? k with
  | none =>
    rw [erase_of_find?_none h] at hf ⊢
    simp [put, live, h, insert_run hu hf]
  | some e =>
    simp [put, live, h, hd e h, insert_run (s := s.erase k) hu hf]; rfl

theorem remove_run : (remove k t).run s = ((s.view t k).isSome, s.erase k) := by
  cases h : s.find? k with
  | none => simp [remove, h, view, erase_of_find?_none h]; rfl
  | some e =>
    cases hx : e.isExpired t <;> simp [remove, h, view, hx] <;> rfl

theorem increment_run_live (hf : s.find? k = some e) (he : e.isExpired t = false) {b : Int} :
    (increment k b ttl t).run s =
      match parseCounter e.value with
      | none => (.error .notANumber, s)
      | some c =>
        if c + b < i64Min ∨ i64Max < c + b then (.error .overflow, s)
        else (.ok (c + b), { s.update k (e.write (counterBytes (c + b))
          (if ttl.isSome then expiry t ttl else e.expiresAt) t) with writes := s.writes + 1 }) := by
  cases hp : parseCounter e.value with
  | none => simp [increment, live, hf, he, hp]; rfl
  | some c =>
    by_cases ho : c + b < i64Min ∨ i64Max < c + b
    · simp [increment, live, hf, he, hp, ho]; rfl
    · simp [increment, live, hf, he, hp, ho]; rfl

theorem increment_run_dead (hd : ∀ e, s.find? k = some e → e.isExpired t = true)
    (hu : s.maxItems = none) {b : Int} :
    (increment k b ttl t).run s =
      (.ok b, { s.erase k with
        entries := (s.erase k).entries ++ [(k, Entry.fresh (counterBytes b) (expiry t ttl) t)],
        writes := s.writes + 1 }) := by
  have hf : (s.erase k).find? k = none := by simp [find?_erase]
  cases h : s.find? k with
  | none =>
    rw [erase_of_find?_none h] at hf ⊢
    simp [increment, live, h, insert_run hu hf]; rfl
  | some e =>
    simp [increment, live, h, hd e h, insert_run (s := s.erase k) hu hf]; rfl

theorem setExpiration_run_live (hf : s.find? k = some e) (he : e.isExpired t = false)
    {d : Duration} :
    (setExpiration k d t).run s = (true, s.update k { e with expiresAt := expiry t (some d) }) := by
  simp [setExpiration, live, hf, he]; rfl

theorem setExpiration_run_dead (hd : ∀ e, s.find? k = some e → e.isExpired t = true)
    {d : Duration} : (setExpiration k d t).run s = (false, s.erase k) := by
  cases h : s.find? k with
  | none => simp [setExpiration, live, h, erase_of_find?_none h]; rfl
  | some e => simp [setExpiration, live, h, hd e h]; rfl

theorem expiration_run_fst :
    ((expiration k t).run s).1 = (s.view t k).bind (·.remaining t) := by
  rcases live_or_dead s k t with ⟨e, hf, he⟩ | hd
  · simp [expiration, live, hf, he, view_live hf he]; rfl
  · rw [view_dead hd]
    have := live_run_dead hd
    simp only [expiration, StateT.run_bind] at this ⊢
    simp [this]; rfl

end run

end Store

/-! ## Refinement, one operation at a time -/

namespace TtlMap

variable {m : TtlMap} {k : String} {v : Value} {now : Stamp}

theorem write_of_eq (h : m k = some v) (hv : v.liveAt now) : m.write k v now = m := by
  funext k'
  by_cases hk : k' = k
  · subst hk; simp [write, h, hv]
  · simp [write, hk]

theorem filter_drop_key (S : Finset String) :
    (S.filter fun x => (m.drop (· == k) x).isSome) = (S.filter fun x => (m x).isSome).erase k := by
  ext x
  by_cases h : x = k <;> simp [drop, h]

theorem card_filter_insert (S : Finset String) :
    ((insert k S).filter fun x => (m x).isSome).card =
      (if (m k).isSome then 1 else 0) + ((S.filter fun x => (m x).isSome).erase k).card := by
  rw [Finset.filter_insert]
  by_cases h : (m k).isSome
  · rw [if_pos h, if_pos h, Finset.card_insert_eq_ite, Finset.card_erase_eq_ite]
    split_ifs with hm
    · have := Finset.card_pos.2 ⟨k, hm⟩
      omega
    · omega
  · rw [if_neg h, if_neg h, Finset.erase_eq_of_notMem (by simp [h])]
    omega

end TtlMap

/-- An operation on `s` at `now` leaves the live values the specification leaves, and answers
what it answers beside the expired entries `unswept` counts. -/
def Call.Refines (s : Store) (now : Stamp) (c : Call) : Prop :=
  ((c.run now).run s).2.view now = (c.spec now (s.view now)).2 ∧
    ((c.run now).run s).1 = (c.spec now (s.view now)).1.addCount (c.unswept s now)

namespace Store

variable {s : Store} {k : String} {t : Stamp} {e : Entry}

theorem run_map {α : Type} {f : α → Answer} {x : Op α} :
    (f <$> x).run s = (f (x.run s).1, (x.run s).2) := rfl

theorem view_read : ((read k t).run s).2.view t = s.view t := by
  rcases live_or_dead s k t with ⟨e, hf, he⟩ | hd
  · rw [read_run_live hf he]
    have hv : s.view t k = some ⟨e.value, e.expiresAt⟩ := view_live hf he
    exact (view_update (by simp [hf])).trans
      (TtlMap.write_of_eq hv (by simp [liveAt_eq_not_isExpired, he]))
  · rw [read_run_dead hd]
    exact view_erase_dead hd

theorem read_run_fst : ((read k t).run s).1 = s.view t k := by
  rcases live_or_dead s k t with ⟨e, hf, he⟩ | hd
  · rw [read_run_live hf he, view_live hf he]
  · rw [read_run_dead hd, view_dead hd]

theorem refines_get : (Call.get k).Refines s t :=
  ⟨view_read, by simp only [Call.run, run_map, read_run_fst]; rfl⟩

theorem refines_contains : (Call.contains k).Refines s t :=
  ⟨by simp only [Call.run, run_map, contains_run]; exact view_read,
   by simp only [Call.run, run_map, contains_run, read_run_fst]; rfl⟩

/-- Storing an entry under a key that holds no live entry, after dropping what it held. -/
theorem view_insert_dead (hd : ∀ e, s.find? k = some e → e.isExpired t = true) (e' : Entry)
    {n : Nat} :
    ({ s.erase k with entries := (s.erase k).entries ++ [(k, e')], writes := n } : Store).view t =
      (s.view t).write k ⟨e'.value, e'.expiresAt⟩ t := by
  rw [view_append (by simp [find?_erase]), view_erase_dead hd]

section write

variable {v : Bytes} {ttl : Option Duration}

theorem refines_add (hu : s.maxItems = none) : (Call.add k v ttl).Refines s t := by
  rcases live_or_dead s k t with ⟨e, hf, he⟩ | hd
  · simp only [Call.Refines, Call.run, run_map, add_run_live hf he, Call.spec, view_live hf he]
    exact ⟨trivial, rfl⟩
  · simp only [Call.Refines, Call.run, run_map, add_run_dead hd hu, Call.spec, view_dead hd]
    exact ⟨view_insert_dead hd _, rfl⟩

theorem refines_set (hu : s.maxItems = none) : (Call.set k v ttl).Refines s t := by
  rcases live_or_dead s k t with ⟨e, hf, he⟩ | hd
  · simp only [Call.Refines, Call.run, run_map, put_run_live hf he, Call.spec]
    exact ⟨view_update (by simp [hf]), rfl⟩
  · simp only [Call.Refines, Call.run, run_map, put_run_dead hd hu, Call.spec]
    exact ⟨view_insert_dead hd _, rfl⟩

theorem refines_replaceIfEqual {exp : Bytes} : (Call.replaceIfEqual k exp v ttl).Refines s t := by
  rcases live_or_dead s k t with ⟨e, hf, he⟩ | hd
  · by_cases hv : e.value = exp
    · simp only [Call.Refines, Call.run, run_map, replaceIfEqual_run_live hf he, hv, if_true,
        Call.spec, view_live hf he]
      exact ⟨view_update (by simp [hf]), rfl⟩
    · simp only [Call.Refines, Call.run, run_map, replaceIfEqual_run_live hf he, hv, if_false,
        Call.spec, view_live hf he]
      exact ⟨trivial, rfl⟩
  · simp only [Call.Refines, Call.run, run_map, replaceIfEqual_run_dead hd, Call.spec, view_dead hd]
    exact ⟨view_erase_dead hd, rfl⟩

theorem refines_removeIfEqual {exp : Bytes} : (Call.removeIfEqual k exp).Refines s t := by
  rcases live_or_dead s k t with ⟨e, hf, he⟩ | hd
  · by_cases hv : e.value = exp
    · simp only [Call.Refines, Call.run, run_map, removeIfEqual_run_live hf he, hv, if_true,
        Call.spec, view_live hf he]
      exact ⟨view_erase, rfl⟩
    · simp only [Call.Refines, Call.run, run_map, removeIfEqual_run_live hf he, hv, if_false,
        Call.spec, view_live hf he]
      exact ⟨trivial, rfl⟩
  · simp only [Call.Refines, Call.run, run_map, removeIfEqual_run_dead hd, Call.spec, view_dead hd]
    exact ⟨view_erase_dead hd, rfl⟩

theorem refines_increment {b : Int} (hu : s.maxItems = none) :
    (Call.increment k b ttl).Refines s t := by
  rcases live_or_dead s k t with ⟨e, hf, he⟩ | hd
  · simp only [Call.Refines, Call.run, run_map, increment_run_live hf he, Call.spec,
      view_live hf he]
    cases parseCounter e.value with
    | none => exact ⟨rfl, rfl⟩
    | some c =>
      by_cases ho : c + b < i64Min ∨ i64Max < c + b
      · simp only [ho, if_true]; exact ⟨trivial, rfl⟩
      · simp only [ho, if_false]; exact ⟨view_update (by simp [hf]), rfl⟩
  · simp only [Call.Refines, Call.run, run_map, increment_run_dead hd hu, Call.spec, view_dead hd]
    exact ⟨view_insert_dead hd _, rfl⟩

theorem refines_setExpiration {d : Duration} : (Call.setExpiration k d).Refines s t := by
  rcases live_or_dead s k t with ⟨e, hf, he⟩ | hd
  · simp only [Call.Refines, Call.run, run_map, setExpiration_run_live hf he, Call.spec,
      view_live hf he]
    exact ⟨view_update (by simp [hf]), rfl⟩
  · simp only [Call.Refines, Call.run, run_map, setExpiration_run_dead hd, Call.spec, view_dead hd]
    exact ⟨view_erase_dead hd, rfl⟩

end write

theorem refines_remove : (Call.remove k).Refines s t := by
  simp only [Call.Refines, Call.run, run_map, remove_run, Call.spec]
  exact ⟨view_erase, rfl⟩

theorem refines_getExpiration : (Call.getExpiration k).Refines s t := by
  simp only [Call.Refines, Call.run, run_map, expiration_run_fst, expiration_run, Call.spec]
  refine ⟨?_, rfl⟩
  rcases live_or_dead s k t with ⟨e, hf, he⟩ | hd
  · rw [live_run_live hf he]
  · rw [live_run_dead hd]; exact view_erase_dead hd

/-! ## Bulk removals -/

theorem removeByPrefix_run {pre : String} :
    (removeByPrefix pre).run s =
      ((s.entries.filter fun p => p.1.startsWith pre).length,
        { s with entries := s.entries.filter fun p => !p.1.startsWith pre }) := by
  have hsplit := List.length_eq_length_filter_add (l := s.entries) fun p => p.1.startsWith pre
  simp [removeByPrefix, hsplit]
  rfl

theorem flush_run : flush.run s = (s.entries.length, { s with entries := [] }) := rfl

theorem find?_keep (q : String → Bool) :
    ({ s with entries := s.entries.filter fun p => !q p.1 } : Store).find? k =
      if q k then none else s.find? k := by
  have hp : (fun p : String × Entry => !q p.1 && decide (p.1 = k)) =
      fun p => !q k && decide (p.1 = k) := by
    funext p
    by_cases h : p.1 = k <;> simp [h]
  cases hq : q k
  · simp [find?, hp, hq]; rfl
  · simp [find?, hp, hq]

theorem view_keep (q : String → Bool) :
    ({ s with entries := s.entries.filter fun p => !q p.1 } : Store).view t = (s.view t).drop q := by
  funext k
  cases hq : q k <;> simp [view, TtlMap.drop, find?_keep, hq]

/-- The removal loop over a list of keys, from the count `n`: it counts the distinct keys that
hold a live value and keeps the entries of the other keys. -/
theorem removeAll_loop (ks : List String) (n : Nat) (s : Store) :
    (ks.foldlM (fun n k => do return if ← remove k t then n + 1 else n) n).run s =
      (n + (ks.toFinset.filter fun k => (s.view t k).isSome).card,
        { s with entries := s.entries.filter fun p => !decide (p.1 ∈ ks) }) := by
  induction ks generalizing n s with
  | nil => simp; rfl
  | cons k ks ih =>
    simp only [List.foldlM_cons, StateT.run_bind, remove_run, StateT.run_pure]
    refine (ih _ _).trans (Prod.ext ?_ ?_)
    · show (if (s.view t k).isSome then n + 1 else n) +
          (ks.toFinset.filter fun x => ((s.erase k).view t x).isSome).card = _
      rw [view_erase, TtlMap.filter_drop_key, List.toFinset_cons, TtlMap.card_filter_insert]
      split_ifs <;> omega
    · -- removing `k` and then the rest keeps what removing them all keeps
      show ({ s.erase k with entries := (s.erase k).entries.filter fun p => !decide (p.1 ∈ ks) } :
        Store) = _
      simp only [erase, List.filter_filter, List.mem_cons]
      congr 2
      funext p
      by_cases h : p.1 = k <;> simp [h]

theorem removeAll_run {ks : List String} :
    (removeAll ks t).run s =
      ((ks.toFinset.filter fun k => (s.view t k).isSome).card,
        { s with entries := s.entries.filter fun p => !decide (p.1 ∈ ks) }) :=
  (removeAll_loop ks 0 s).trans (by rw [Nat.zero_add])

theorem refines_removeAll {ks : List String} : (Call.removeAll ks).Refines s t := by
  simp only [Call.Refines, Call.run, run_map, removeAll_run, Call.spec, Call.unswept,
    Answer.addCount, Nat.add_zero]
  exact ⟨view_keep fun k => decide (k ∈ ks), trivial⟩

/-- With keys stored once, a prefix removal drops the prefixed keys from the view and counts
the live ones among them beside the expired entries. -/
theorem refines_removeByPrefix (hk : s.Keyed) {pre : String} :
    (Call.removeByPrefix pre).Refines s t := by
  simp only [Call.Refines, Call.run, run_map, removeByPrefix_run, Call.spec, Call.unswept,
    Answer.addCount]
  refine ⟨view_keep fun k => k.startsWith pre, ?_⟩
  rw [count_view hk]
  have h := List.length_eq_length_filter_add (l := s.entries.filter fun p => p.1.startsWith pre)
    fun p => !p.2.isExpired t
  simp only [List.filter_filter, Bool.not_not, Bool.and_comm] at h ⊢
  exact congrArg Answer.count h

theorem refines_flush (hk : s.Keyed) : Call.flush.Refines s t := by
  simp only [Call.Refines, Call.run, run_map, flush_run, Call.spec, Call.unswept, Answer.addCount]
  refine ⟨rfl, ?_⟩
  rw [count_view hk]
  have h := List.length_eq_length_filter_add (l := s.entries) fun p => !p.2.isExpired t
  simp only [Bool.true_and, Bool.not_not] at h ⊢
  exact congrArg Answer.count h

/-! ## Keys stored once -/

namespace Keyed

theorem erase (hk : s.Keyed) : (s.erase k).Keyed := hk.sublist (List.filter_sublist.map _)

theorem keep (hk : s.Keyed) (q : String → Bool) :
    ({ s with entries := s.entries.filter fun p => !q p.1 } : Store).Keyed :=
  hk.sublist (List.filter_sublist.map _)

theorem update (hk : s.Keyed) : (s.update k e).Keyed := by
  have hm : (s.update k e).entries.map (·.1) = s.entries.map (·.1) := by
    simp only [Store.update, List.map_map]
    refine List.map_congr_left fun p _ => ?_
    by_cases h : p.1 = k <;> simp [h]
  show ((s.update k e).entries.map (·.1)).Nodup
  exact hm ▸ hk

theorem append_erase (hk : s.Keyed) {n : Nat} :
    ({ s.erase k with entries := (s.erase k).entries ++ [(k, e)], writes := n } : Store).Keyed := by
  show (((s.erase k).entries ++ [(k, e)]).map (·.1)).Nodup
  rw [List.map_append, List.nodup_append]
  exact ⟨hk.erase, List.nodup_singleton _, by simp [Store.erase]⟩

end Keyed

/-- Every operation keeps an unbounded cache unbounded, with its keys stored once. -/
theorem keyed_run (hk : s.Keyed) (hu : s.maxItems = none) (c : Call) (now : Stamp) :
    ((c.run now).run s).2.Keyed ∧ ((c.run now).run s).2.maxItems = none := by
  -- an operation leaves the store, or drops a key, writes it in place, or writes it anew
  cases c with
  | get k | contains k =>
    rcases live_or_dead s k now with ⟨e, hf, he⟩ | hd
    · simp only [Call.run, run_map, contains_run, read_run_live hf he]; exact ⟨hk.update, hu⟩
    · simp only [Call.run, run_map, contains_run, read_run_dead hd]; exact ⟨hk.erase, hu⟩
  | add k v ttl =>
    rcases live_or_dead s k now with ⟨e, hf, he⟩ | hd
    · simp only [Call.run, run_map, add_run_live hf he]; exact ⟨hk, hu⟩
    · simp only [Call.run, run_map, add_run_dead hd hu]; exact ⟨hk.append_erase, hu⟩
  | set k v ttl =>
    rcases live_or_dead s k now with ⟨e, hf, he⟩ | hd
    · simp only [Call.run, run_map, put_run_live hf he]; exact ⟨hk.update, hu⟩
    · simp only [Call.run, run_map, put_run_dead hd hu]; exact ⟨hk.append_erase, hu⟩
  | replaceIfEqual k x v ttl =>
    rcases live_or_dead s k now with ⟨e, hf, he⟩ | hd
    · simp only [Call.run, run_map, replaceIfEqual_run_live hf he]
      split_ifs
      exacts [⟨hk.update, hu⟩, ⟨hk, hu⟩]
    · simp only [Call.run, run_map, replaceIfEqual_run_dead hd]; exact ⟨hk.erase, hu⟩
  | removeIfEqual k x =>
    rcases live_or_dead s k now with ⟨e, hf, he⟩ | hd
    · simp only [Call.run, run_map, removeIfEqual_run_live hf he]
      split_ifs
      exacts [⟨hk.erase, hu⟩, ⟨hk, hu⟩]
    · simp only [Call.run, run_map, removeIfEqual_run_dead hd]; exact ⟨hk.erase, hu⟩
  | increment k b ttl =>
    rcases live_or_dead s k now with ⟨e, hf, he⟩ | hd
    · simp only [Call.run, run_map, increment_run_live hf he]
      cases parseCounter e.value with
      | none => exact ⟨hk, hu⟩
      | some c =>
        by_cases ho : c + b < i64Min ∨ i64Max < c + b
        · simp only [ho, if_true]; exact ⟨hk, hu⟩
        · simp only [ho, if_false]; exact ⟨hk.update, hu⟩
    · simp only [Call.run, run_map, increment_run_dead hd hu]; exact ⟨hk.append_erase, hu⟩
  | remove k => simp only [Call.run, run_map, remove_run]; exact ⟨hk.erase, hu⟩
  | getExpiration k =>
    simp only [Call.run, run_map, expiration_run]
    rcases live_or_dead s k now with ⟨e, hf, he⟩ | hd
    · rw [live_run_live hf he]; exact ⟨hk, hu⟩
    · rw [live_run_dead hd]; exact ⟨hk.erase, hu⟩
  | setExpiration k d =>
    rcases live_or_dead s k now with ⟨e, hf, he⟩ | hd
    · simp only [Call.run, run_map, setExpiration_run_live hf he]; exact ⟨hk.update, hu⟩
    · simp only [Call.run, run_map, setExpiration_run_dead hd]; exact ⟨hk.erase, hu⟩
  | removeAll ks =>
    simp only [Call.run, run_map, removeAll_run]; exact ⟨hk.keep fun k => decide (k ∈ ks), hu⟩
  | removeByPrefix pre =>
    simp only [Call.run, run_map, removeByPrefix_run]; exact ⟨hk.keep (·.startsWith pre), hu⟩
  | flush => exact ⟨List.nodup_nil, hu⟩

/-- Operations one after the other keep an unbounded cache unbounded, with its keys stored
once; so `run_refines` holds at every store the operations reach from an empty one. -/
theorem keyed_runAll (cs : List (Call × Stamp)) (hk : s.Keyed) (hu : s.maxItems = none) :
    ((Call.runAll cs).run s).2.Keyed ∧ ((Call.runAll cs).run s).2.maxItems = none := by
  induction cs generalizing s with
  | nil => exact ⟨hk, hu⟩
  | cons c cs ih =>
    obtain ⟨hk', hu'⟩ := keyed_run hk hu c.1 c.2
    simp only [Call.runAll, List.mapM_cons, StateT.run_bind]
    exact ih hk' hu'

theorem view_of_expired (h : ∀ p ∈ s.entries, p.2.isExpired t) : s.view t = fun _ => none :=
  funext fun _ => view_dead fun _ he => h _ (mem_of_find? he)

/-! ## The refinement -/

/-- On an unbounded cache whose keys are stored once, every operation leaves the live values
its specification leaves, and answers what the specification answers, save that a prefix
removal and a flush also count the expired entries they drop. -/
theorem run_refines (hk : s.Keyed) (hu : s.maxItems = none) (c : Call) (now : Stamp) :
    ((c.run now).run s).2.view now = (c.spec now (s.view now)).2 ∧
      ((c.run now).run s).1 = (c.spec now (s.view now)).1.addCount (c.unswept s now) := by
  cases c with
  | get k => exact refines_get
  | add k v ttl => exact refines_add hu
  | set k v ttl => exact refines_set hu
  | replaceIfEqual k e v ttl => exact refines_replaceIfEqual
  | removeIfEqual k e => exact refines_removeIfEqual
  | increment k b ttl => exact refines_increment hu
  | remove k => exact refines_remove
  | contains k => exact refines_contains
  | getExpiration k => exact refines_getExpiration
  | setExpiration k d => exact refines_setExpiration
  | removeAll ks => exact refines_removeAll
  | removeByPrefix pre => exact refines_removeByPrefix hk
  | flush => exact refines_flush hk

/-- A flush after two writes with no time to live: no key is live, and the flush counts the
two expired entries. -/
theorem run_refines_flush_expired :
    let s := ((Call.runAll [(.set "a:1" [118] (some .zero), ⟨0⟩), (.set "b" [119] (some .zero), ⟨0⟩)]).run
      (empty none)).2
    s.Keyed ∧ s.maxItems = none ∧
      ((Call.flush.run ⟨0⟩).run s).2.view ⟨0⟩ = (Call.flush.spec ⟨0⟩ (s.view ⟨0⟩)).2 ∧
      ((Call.flush.run ⟨0⟩).run s).1 =
        (Call.flush.spec ⟨0⟩ (s.view ⟨0⟩)).1.addCount (Call.flush.unswept s ⟨0⟩) := by
  intro s
  have hk : s.Keyed := by
    show (s.entries.map (·.1)).Nodup
    decide
  exact ⟨hk, rfl, run_refines hk rfl .flush ⟨0⟩⟩

/-- Two writes with no time to live leave no live key, so a prefix removal should count none;
it counts the expired entry it drops, and a flush then counts the other. -/
theorem removeByPrefix_counts_expired :
    let s := ((Call.runAll [(.set "a:1" [118] (some .zero), ⟨0⟩), (.set "b" [119] (some .zero), ⟨0⟩)]).run
      (empty none)).2
    ((Call.removeByPrefix "a:").spec ⟨0⟩ (s.view ⟨0⟩)).1 = .count 0 ∧
      ((Call.runAll [(.removeByPrefix "a:", ⟨0⟩), (.flush, ⟨0⟩)]).run s).1 = [.count 1, .count 1] := by
  intro s
  have hv : s.view ⟨0⟩ = fun _ => none := view_of_expired (by decide)
  refine ⟨?_, by decide +kernel⟩
  simp [Call.spec, TtlMap.count, hv]

end Store

end Backplane.Cache
