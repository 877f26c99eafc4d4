import Mathlib.Data.List.Nodup
import Backplane.Host.Queue

/-!
# The queue store: lookups and changes

What each change of an in-memory queue store does to the entry looked up under an id, and one
inversion lemma per checked call (renew, complete, abandon, retry of a dead letter, forced
expiry): either the call is turned down and the store is returned as it was, or it changes
one named entry in one named way.

A reclaim is a fold over the expired entries; `reclaimExpired_eq` states it as the plain
recursion `releaseEach`, over which the invariants are proved by induction. A consumer's
attempt to take an entry is `Store.take`: the reclaim, the lease of the first available
entry, and the counting, as the host does them in one atomic block.
-/

namespace Backplane.Queue

namespace Record

variable {r : Record} {token : String} {now : Stamp}

theorem isOwnedBy_iff :
    r.isOwnedBy token now = true ↔
      ∃ t, r.state = .dequeued t ∧ now < t ∧ r.leaseToken = some token := by
  unfold isOwnedBy
  split <;> simp_all

theorem isAvailable_iff : r.isAvailable now = true ↔ r.state = .enqueued ∧ r.availableAt ≤ now := by
  unfold isAvailable
  split <;> simp_all

theorem leaseExpired_iff : r.leaseExpired now = true ↔ ∃ t, r.state = .dequeued t ∧ t ≤ now := by
  unfold leaseExpired
  split <;> simp_all

end Record

namespace Store

variable {s : Store} {o : Options} {id x token : String} {r : Record} {now : Stamp}

/-! ## Lookups -/

theorem find?_spec (h : s.find? id = some r) : r ∈ s.records ∧ r.id = id := by
  unfold find? at h
  exact ⟨List.mem_of_find?_eq_some h, by simpa using List.find?_some h⟩

theorem find?_eq_none : s.find? id = none ↔ id ∉ s.records.map (·.id) := by
  simp [find?, List.find?_eq_none]

theorem find?_of_mem (hn : (s.records.map (·.id)).Nodup) (hr : r ∈ s.records) :
    s.find? r.id = some r := by
  cases h : s.find? r.id with
  | none => exact absurd (List.mem_map_of_mem hr) (find?_eq_none.1 h)
  | some r' =>
    obtain ⟨hr', hid⟩ := find?_spec h
    rw [List.inj_on_of_nodup_map hn hr' hr hid]

/-! ## Changing one entry -/

section modify

variable {f : Record → Record}

theorem find?_modifyRecord (hf : ∀ r, r.id = id → (f r).id = id) :
    (s.modifyRecord id f).find? x = (s.find? x).map fun r => if x = id then f r else r := by
  have hp : ((fun r : Record => r.id == x) ∘ fun r => if r.id == id then f r else r) =
      fun r => r.id == x := by
    funext r; by_cases h : r.id = id <;> simp [h, hf]
  simp only [find?, modifyRecord]
  rw [List.find?_map, hp]
  cases h : s.records.find? (·.id == x) with
  | none => rfl
  | some r =>
    have hid : r.id = x := by simpa using List.find?_some h
    simp [hid]

theorem find?_modifyRecord_eq (hf : ∀ r, r.id = id → (f r).id = id) (hr : s.find? id = some r) :
    (s.modifyRecord id f).find? x = if x = id then some (f r) else s.find? x := by
  rw [find?_modifyRecord hf]
  by_cases hx : x = id
  · subst hx; simp [hr]
  · simp [hx]

theorem find?_modifyRecord_of_ne (hne : x ≠ id) (hf : ∀ r, r.id = id → (f r).id = id) :
    (s.modifyRecord id f).find? x = s.find? x := by
  rw [find?_modifyRecord hf]; simp [hne]

theorem ids_modifyRecord (hf : ∀ r, r.id = id → (f r).id = id) :
    (s.modifyRecord id f).records.map (·.id) = s.records.map (·.id) := by
  simp only [modifyRecord, List.map_map]
  congr 1; funext r; by_cases h : r.id = id <;> simp [h, hf]

end modify

theorem find?_enqueue {p : Bytes} (hfresh : id ∉ s.records.map (·.id)) :
    (s.enqueue id p now).1.find? x =
      if x = id then some (Record.fresh id p now) else s.find? x := by
  have hn : s.find? id = none := find?_eq_none.2 hfresh
  by_cases h : x = id
  · subst h
    simp only [find?] at hn
    simp [enqueue, find?, List.find?_append, hn, Record.fresh]
  · simp [enqueue, find?, List.find?_append, Record.fresh, h, Ne.symm h]

theorem find?_filter_id {c : Counters} :
    ({ s with records := s.records.filter (·.id != id), counters := c } : Store).find? x =
      if x = id then none else s.find? x := by
  by_cases hx : x = id
  · subst hx
    simp only [find?, if_true, List.find?_eq_none, List.mem_filter]
    intro r' hr'; simp_all
  · simp only [find?, hx, if_false, List.find?_filter]
    congr 1; funext r'
    by_cases hr' : r'.id = x <;> simp [hr', hx]

/-! ## Handing back and reclaiming -/

section release

variable {reason : Option String} {timedOut : Bool}

/-- A hand-back after the last delivery parks the entry. -/
theorem release_park (h : s.find? id = some r) (hm : o.maxAttempts ≤ r.attempts) :
    s.release o id reason timedOut now =
      ({ s.modifyRecord id (·.deadLetter now reason) with dead := s.dead ++ [id] },
       (if timedOut then [.leaseExpired id r.attempts now] else []) ++
         [.deadLettered id r.attempts reason now]) := by
  simp [release, h, hm]

/-- A hand-back before the last delivery puts the entry back in line after its retry delay. -/
theorem release_requeue (h : s.find? id = some r) (hm : r.attempts < o.maxAttempts) :
    s.release o id reason timedOut now =
      ({ s.modifyRecord id (·.requeue (now.addOrMax (o.retryDelayFor r.attempts)) reason) with
           ready := s.ready ++ [id] },
       (if timedOut then [.leaseExpired id r.attempts now] else []) ++
         (if timedOut then [] else
           [.abandoned id r.attempts reason (now.addOrMax (o.retryDelayFor r.attempts)) now])) := by
  simp [release, h, Nat.not_le.2 hm]

theorem find?_release_of_ne (hne : x ≠ id) :
    (s.release o id reason timedOut now).1.find? x = s.find? x := by
  cases hr : s.find? id with
  | none => simp [release, hr]
  | some r =>
    by_cases hm : o.maxAttempts ≤ r.attempts
    · rw [release_park hr hm]
      exact find?_modifyRecord_of_ne hne fun _ h => h
    · rw [release_requeue hr (by omega)]
      exact find?_modifyRecord_of_ne hne fun _ h => h

end release

/-- Release the entries of a list one after the other, as a reclaim does. -/
def releaseEach (o : Options) (now : Stamp) : List String → Store → Store × List Event
  | [], s => (s, [])
  | id :: ids, s =>
    let (s₁, evs₁) := s.release o id (some leaseExpiredReason) true now
    let (s₂, evs₂) := releaseEach o now ids s₁
    (s₂, evs₁ ++ evs₂)

theorem releaseEach_cons {ids : List String} :
    releaseEach o now (id :: ids) s =
      ((releaseEach o now ids (s.release o id (some leaseExpiredReason) true now).1).1,
       (s.release o id (some leaseExpiredReason) true now).2 ++
         (releaseEach o now ids (s.release o id (some leaseExpiredReason) true now).1).2) := rfl

/-- The entries whose lease has run out at `now`, in the order they were created. -/
def expiredIds (now : Stamp) (s : Store) : List String :=
  (s.records.filter (·.leaseExpired now)).map (·.id)

theorem reclaimExpired_eq : s.reclaimExpired o now = releaseEach o now (expiredIds now s) s := by
  -- the fold carries the events heard so far; `releaseEach` starts from none
  have key : ∀ (l : List String) (acc : Store × List Event),
      l.foldl (fun acc id =>
        let (s', evs) := release o id (some leaseExpiredReason) true now acc.1
        (s', acc.2 ++ evs)) acc =
        ((releaseEach o now l acc.1).1, acc.2 ++ (releaseEach o now l acc.1).2) := by
    intro l
    induction l with
    | nil => intro acc; simp [releaseEach]
    | cons id ids ih => intro acc; simp [releaseEach, ih]
  simp [reclaimExpired, expiredIds, key]

theorem expiredIds_nodup (hn : (s.records.map (·.id)).Nodup) : (expiredIds now s).Nodup :=
  hn.sublist (List.filter_sublist.map _)

theorem expiredIds_spec (hn : (s.records.map (·.id)).Nodup) (hx : id ∈ expiredIds now s) :
    ∃ r t, s.find? id = some r ∧ r.state = .dequeued t ∧ t ≤ now := by
  simp only [expiredIds, List.mem_map, List.mem_filter] at hx
  obtain ⟨r, ⟨hr, he⟩, rfl⟩ := hx
  obtain ⟨t, ht, hle⟩ := Record.leaseExpired_iff.1 he
  exact ⟨r, t, find?_of_mem hn hr, ht, hle⟩

/-! ## Leasing -/

theorem firstAvailable?_spec (h : s.firstAvailable? now = some id) :
    id ∈ s.ready ∧ ∃ r, s.find? id = some r ∧ r.state = .enqueued ∧ r.availableAt ≤ now := by
  unfold firstAvailable? at h
  have hp := List.find?_some h
  simp only [Option.any_eq_true] at hp
  obtain ⟨r, hr, ha⟩ := hp
  exact ⟨List.mem_of_find?_eq_some h, r, hr, Record.isAvailable_iff.1 ha⟩

theorem lease_of_find? (h : s.find? id = some r) :
    s.lease o id token now =
      ({ s.modifyRecord id fun _ => r.startLease token (now.addOrMax o.visibilityTimeout) now with
           ready := s.ready.erase id },
       some ⟨id, r.payload, r.attempts + 1, r.createdAt, now, token,
             now.addOrMax o.visibilityTimeout⟩) := by
  simp [lease, h, Record.startLease]

theorem find?_lease (h : s.find? id = some r) :
    (s.lease o id token now).1.find? x =
      if x = id then some (r.startLease token (now.addOrMax o.visibilityTimeout) now)
      else s.find? x := by
  rw [lease_of_find? h]
  exact find?_modifyRecord_eq
    (f := fun _ => r.startLease token (now.addOrMax o.visibilityTimeout) now)
    (fun _ _ => (find?_spec h).2) h

/-- Lease the first entry of the line that can be delivered now, if there is one. -/
def leaseFirst (o : Options) (token : String) (now : Stamp) (s : Store) : Store × Option Leased :=
  match s.firstAvailable? now with
  | some id => s.lease o id token now
  | none => (s, none)

theorem leaseFirst_cases (s : Store) (o : Options) (token : String) (now : Stamp) :
    s.leaseFirst o token now = (s, none) ∨
      ∃ id r, s.firstAvailable? now = some id ∧ s.find? id = some r ∧
        s.leaseFirst o token now = s.lease o id token now := by
  unfold leaseFirst
  split
  · rename_i id ha
    obtain ⟨-, r, hr, -⟩ := firstAvailable?_spec ha
    exact .inr ⟨id, r, ha, hr, rfl⟩
  · exact .inl rfl

/-- One attempt of a consumer to take an entry at `now` under a new lease token: reclaim the
leases that ran out, lease the first available entry, and count both. The store, the events
reported (the reclaims, then the delivery), and the entry leased. -/
def take (o : Options) (token : String) (now : Stamp) (s : Store) :
    Store × List Event × Option Leased :=
  let r := s.reclaimExpired o now
  let l := r.1.leaseFirst o token now
  let s' := l.1.countTimeouts (timeouts r.2)
  match l.2 with
  | some e => (s'.countDequeued, r.2 ++ [.dequeued e.id e.attempts e.leaseUntil now], some e)
  | none => (s', r.2, none)

/-- An attempt changes the entries as the reclaim and the lease do; the rest is counting. -/
theorem take_entries (s : Store) (o : Options) (token : String) (now : Stamp) :
    (s.take o token now).1.records = ((s.reclaimExpired o now).1.leaseFirst o token now).1.records ∧
      (s.take o token now).1.ready = ((s.reclaimExpired o now).1.leaseFirst o token now).1.ready ∧
      (s.take o token now).1.dead = ((s.reclaimExpired o now).1.leaseFirst o token now).1.dead := by
  unfold take; dsimp only; split <;> exact ⟨rfl, rfl, rfl⟩

theorem take_leased :
    (s.take o token now).2.2 = ((s.reclaimExpired o now).1.leaseFirst o token now).2 := by
  unfold take; dsimp only; split <;> simp_all

theorem find?_take :
    (s.take o token now).1.find? id =
      ((s.reclaimExpired o now).1.leaseFirst o token now).1.find? id := by
  simp [find?, (take_entries s o token now).1]

/-! ## The checked calls

Each of these calls either is turned down, returning the store as it was, or changes the one
entry it names. -/

theorem renew_cases (s : Store) (id token : String) (ext : Duration) (now : Stamp) :
    s.renew id token ext now = (s, none) ∨
      ∃ r, s.find? id = some r ∧ r.isOwnedBy token now = true ∧
        s.renew id token ext now =
          (s.modifyRecord id (·.extendLease (now.addOrMax ext)),
           some (.lockRenewed id (now.addOrMax ext) now)) := by
  unfold renew
  split
  · rename_i r h
    by_cases ho : r.isOwnedBy token now = true
    · exact .inr ⟨r, h, ho, by simp [ho]⟩
    · exact .inl (by simp [ho])
  · exact .inl rfl

theorem complete_cases (s : Store) (id token : String) (now : Stamp) :
    s.complete id token now = (s, none) ∨
      ∃ r, s.find? id = some r ∧ r.isOwnedBy token now = true ∧
        s.complete id token now =
          ({ s with records := s.records.filter (·.id != id),
                    counters := { s.counters with completed := s.counters.completed + 1 } },
           some (.completed id now)) := by
  unfold complete
  split
  · rename_i r h
    by_cases ho : r.isOwnedBy token now = true
    · exact .inr ⟨r, h, ho, by simp [ho]⟩
    · exact .inl (by simp [ho])
  · exact .inl rfl

/-- An accepted hand-back changes the entries as a release does; only the counters differ. -/
theorem abandon_cases (s : Store) (o : Options) (id token : String) (reason : Option String)
    (now : Stamp) :
    s.abandon o id token reason now = (s, none) ∨
      ∃ r, s.find? id = some r ∧ r.isOwnedBy token now = true ∧
        (s.abandon o id token reason now).1.records = (s.release o id reason false now).1.records ∧
        (s.abandon o id token reason now).1.ready = (s.release o id reason false now).1.ready ∧
        (s.abandon o id token reason now).1.dead = (s.release o id reason false now).1.dead ∧
        (s.abandon o id token reason now).2 = some (s.release o id reason false now).2 := by
  unfold abandon
  split
  · rename_i r h
    by_cases ho : r.isOwnedBy token now = true
    · exact .inr ⟨r, h, ho, by simp [ho]⟩
    · exact .inl (by simp [ho])
  · exact .inl rfl

theorem retryDeadLetter_cases (s : Store) (id : String) (now : Stamp) :
    s.retryDeadLetter id now = (s, none) ∨
      ∃ r t, s.find? id = some r ∧ r.state = .deadLettered t ∧
        s.retryDeadLetter id now =
          ({ s.modifyRecord id (·.revive now) with
               dead := s.dead.filter (· != id), ready := s.ready ++ [id],
               counters := { s.counters with enqueued := s.counters.enqueued + 1 } },
           some (.enqueued id now)) := by
  unfold retryDeadLetter
  split
  · rename_i r h
    split
    · rename_i t ht
      exact .inr ⟨r, t, h, ht, rfl⟩
    · exact .inl rfl
  · exact .inl rfl

theorem forceLeaseExpiry_cases (s : Store) (id : String) (now : Stamp) :
    s.forceLeaseExpiry id now = (s, false) ∨
      ∃ r t, s.find? id = some r ∧ r.state = .dequeued t ∧
        s.forceLeaseExpiry id now =
          (s.modifyRecord id (·.extendLease ⟨now.nanos - 1000000000⟩), true) := by
  unfold forceLeaseExpiry
  split
  · rename_i r h
    split
    · rename_i t ht
      exact .inr ⟨r, t, h, ht, rfl⟩
    · exact .inl rfl
  · exact .inl rfl

end Store

end Backplane.Queue
