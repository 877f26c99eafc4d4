import Backplane.Proofs.Queue.World

/-!
# The representation invariant of a queue store

A store is well formed (`Store.WellFormed`) when entry ids are distinct, the line lists
exactly the waiting entries and the dead letters exactly the parked ones, each once, and every
entry's state fixes whether it holds a lease token and how many deliveries it has used
(`Record.Sound`).

`WellFormed.update` is the one lemma about changing an entry: the line and the dead letters
must follow the entry's new state. Each change of the store is an instance of it, and
`Step.wellFormed` puts them together: every step of a queue keeps the invariant.
-/

namespace Backplane.Queue

/-- Whether an entry is parked as a dead letter. -/
def State.isParked : State → Bool
  | .deadLettered _ => true
  | _ => false

/-- What an entry's state says of its lease token and its deliveries, in a queue that parks
an entry after `max` deliveries. -/
def Record.Sound (max : Nat) (r : Record) : Prop :=
  match r.state with
  | .enqueued => r.leaseToken = none ∧ r.attempts < max
  | .dequeued _ => r.leaseToken.isSome ∧ 1 ≤ r.attempts ∧ r.attempts ≤ max
  | .deadLettered _ => r.leaseToken = none ∧ r.attempts = max

/-- The representation invariant of a queue store. -/
structure Store.WellFormed (max : Nat) (s : Store) : Prop where
  ids_nodup : (s.records.map (·.id)).Nodup
  ready_nodup : s.ready.Nodup
  dead_nodup : s.dead.Nodup
  mem_ready : ∀ id, id ∈ s.ready ↔ ∃ r, s.find? id = some r ∧ r.state = .enqueued
  mem_dead : ∀ id, id ∈ s.dead ↔ ∃ r, s.find? id = some r ∧ r.state.isParked
  sound : ∀ id r, s.find? id = some r → r.Sound max

theorem Options.validate_maxAttempts {o : Options} (h : o.validate = .ok ()) :
    0 < o.maxAttempts := by
  unfold Options.validate at h
  split at h
  · cases h
  · omega

namespace Store.WellFormed

variable {max : Nat} {s s' : Store} {o : Options} {id token : String} {r : Record} {now : Stamp}

theorem empty : WellFormed max {} :=
  ⟨List.nodup_nil, List.nodup_nil, List.nodup_nil, by simp [find?], by simp [find?],
   by simp [find?]⟩

theorem of_entries (h : WellFormed max s) (hr : s'.records = s.records)
    (hq : s'.ready = s.ready) (hd : s'.dead = s.dead) : WellFormed max s' := by
  have hf : ∀ id, s'.find? id = s.find? id := fun id => by simp [find?, hr]
  exact ⟨hr ▸ h.ids_nodup, hq ▸ h.ready_nodup, hd ▸ h.dead_nodup,
    fun id => by rw [hq, hf]; exact h.mem_ready id,
    fun id => by rw [hd, hf]; exact h.mem_dead id,
    fun id r => by rw [hf]; exact h.sound id r⟩

theorem not_mem_ready (h : WellFormed max s) (hr : s.find? id = some r)
    (hs : r.state ≠ .enqueued) : id ∉ s.ready := by
  rw [h.mem_ready]; rintro ⟨r', hr', he⟩; simp_all

theorem not_mem_dead (h : WellFormed max s) (hr : s.find? id = some r)
    (hs : r.state.isParked = false) : id ∉ s.dead := by
  rw [h.mem_dead]; rintro ⟨r', hr', he⟩; simp_all

/-- One entry's record changes by `f` while the line and the dead letters follow its new
state. -/
theorem update (h : WellFormed max s) (hr : s.find? id = some r) {f : Record → Record}
    (hf : ∀ r, r.id = id → (f r).id = id) (hs : (f r).Sound max) (ready dead : List String)
    (hrn : ready.Nodup) (hdn : dead.Nodup)
    (hready : ∀ x, x ∈ ready ↔ x ∈ s.ready ∧ x ≠ id ∨ x = id ∧ (f r).state = .enqueued)
    (hdead : ∀ x, x ∈ dead ↔ x ∈ s.dead ∧ x ≠ id ∨ x = id ∧ (f r).state.isParked) :
    WellFormed max { s.modifyRecord id f with ready := ready, dead := dead } := by
  have hfind : ∀ x, ({ s.modifyRecord id f with ready := ready, dead := dead } : Store).find? x =
      if x = id then some (f r) else s.find? x :=
    fun x => find?_modifyRecord_eq hf hr
  refine ⟨?_, hrn, hdn, fun x => ?_, fun x => ?_, fun x r' => ?_⟩
  · exact (ids_modifyRecord hf).symm ▸ h.ids_nodup
  · rw [hready, hfind]
    by_cases hx : x = id
    · simp [hx]
    · simp [hx, h.mem_ready x]
  · rw [hdead, hfind]
    by_cases hx : x = id
    · simp [hx]
    · simp [hx, h.mem_dead x]
  · rw [hfind]
    by_cases hx : x = id
    · simp only [hx, if_true, Option.some.injEq]; rintro rfl; exact hs
    · simp only [hx, if_false]; exact h.sound x r'

/-! ## Each change of the store -/

theorem enqueue {p : Bytes} (h : WellFormed max s) (hmax : 0 < max)
    (hfresh : id ∉ s.records.map (·.id)) : WellFormed max (s.enqueue id p now).1 := by
  have hn : s.find? id = none := find?_eq_none.2 hfresh
  have hready : id ∉ s.ready := by rw [h.mem_ready]; simp [hn]
  have hdead : id ∉ s.dead := by rw [h.mem_dead]; simp [hn]
  refine ⟨?_, ?_, h.dead_nodup, fun x => ?_, fun x => ?_, fun x r' => ?_⟩
  · simp only [Store.enqueue, List.map_append, List.map_cons, List.map_nil, Record.fresh]
    rw [← List.concat_eq_append]; exact h.ids_nodup.concat hfresh
  · simp only [Store.enqueue]
    rw [← List.concat_eq_append]; exact h.ready_nodup.concat hready
  · rw [find?_enqueue hfresh]
    by_cases hx : x = id
    · simp [hx, Store.enqueue, Record.fresh]
    · simp [hx, Store.enqueue, h.mem_ready x]
  · rw [find?_enqueue hfresh]
    by_cases hx : x = id
    · simp [hx, Store.enqueue, Record.fresh, State.isParked, hdead]
    · simp [hx, Store.enqueue, h.mem_dead x]
  · rw [find?_enqueue hfresh]
    by_cases hx : x = id
    · simp only [hx, if_true, Option.some.injEq]; rintro rfl
      exact ⟨rfl, hmax⟩
    · simp only [hx, if_false]; exact h.sound x r'

/-- Handing back a leased entry keeps the invariant, whether it goes back in line or is
parked. -/
theorem release {reason : Option String} {timedOut : Bool} (h : WellFormed o.maxAttempts s)
    (hr : s.find? id = some r) {t : Stamp} (hd : r.state = .dequeued t) :
    WellFormed o.maxAttempts (s.release o id reason timedOut now).1 := by
  have hs := h.sound id r hr
  simp only [Record.Sound, hd] at hs
  have hready := h.not_mem_ready hr (by simp [hd])
  have hdead := h.not_mem_dead hr (by simp [hd, State.isParked])
  by_cases hm : o.maxAttempts ≤ r.attempts
  · -- the last delivery is used up: the entry goes to the end of the dead letters
    rw [release_park hr hm]
    refine h.update (f := (·.deadLetter now reason)) hr (fun _ h => h)
      (by simp only [Record.Sound, Record.deadLetter]; exact ⟨trivial, by omega⟩)
      s.ready (s.dead ++ [id]) h.ready_nodup
      (by rw [← List.concat_eq_append]; exact h.dead_nodup.concat hdead)
      (fun x => ?_) (fun x => ?_)
    · by_cases hx : x = id
      · simp [hx, hready, Record.deadLetter]
      · simp [hx]
    · by_cases hx : x = id
      · simp [hx, Record.deadLetter, State.isParked]
      · simp [hx]
  · rw [release_requeue hr (by omega)]
    refine h.update (f := (·.requeue (now.addOrMax (o.retryDelayFor r.attempts)) reason)) hr
      (fun _ h => h) (by simp only [Record.Sound, Record.requeue]; exact ⟨trivial, by omega⟩)
      (s.ready ++ [id]) s.dead
      (by rw [← List.concat_eq_append]; exact h.ready_nodup.concat hready)
      h.dead_nodup (fun x => ?_) (fun x => ?_)
    · by_cases hx : x = id
      · simp [hx, Record.requeue]
      · simp [hx]
    · by_cases hx : x = id
      · simp [hx, hdead, Record.requeue, State.isParked]
      · simp [hx]

theorem releaseEach (h : WellFormed o.maxAttempts s) {ids : List String} (hn : ids.Nodup)
    (hd : ∀ id ∈ ids, ∃ r t, s.find? id = some r ∧ r.state = .dequeued t) :
    WellFormed o.maxAttempts (Store.releaseEach o now ids s).1 := by
  induction ids generalizing s with
  | nil => exact h
  | cons id ids ih =>
    obtain ⟨r, t, hr, ht⟩ := hd id (by simp)
    have hn' := List.nodup_cons.1 hn
    rw [releaseEach_cons]
    -- the other ids are still leased: releasing `id` touched only its own entry
    refine ih (h.release hr ht) hn'.2 fun x hx => ?_
    have hne : x ≠ id := fun e => hn'.1 (e ▸ hx)
    rw [find?_release_of_ne hne]
    exact hd x (by simp [hx])

theorem reclaimExpired (h : WellFormed o.maxAttempts s) :
    WellFormed o.maxAttempts (s.reclaimExpired o now).1 := by
  rw [reclaimExpired_eq]
  refine h.releaseEach (expiredIds_nodup h.ids_nodup) fun x hx => ?_
  obtain ⟨r, t, hr, ht, -⟩ := expiredIds_spec h.ids_nodup hx
  exact ⟨r, t, hr, ht⟩

theorem lease (h : WellFormed o.maxAttempts s) (ha : s.firstAvailable? now = some id) :
    WellFormed o.maxAttempts (s.lease o id token now).1 := by
  obtain ⟨hq, r, hr, he, -⟩ := firstAvailable?_spec ha
  have hs := h.sound id r hr
  simp only [Record.Sound, he] at hs
  have hid := (find?_spec hr).2
  have hdead := h.not_mem_dead hr (by simp [he, State.isParked])
  rw [lease_of_find? hr]
  refine h.update (f := fun _ => r.startLease token (now.addOrMax o.visibilityTimeout) now) hr
    (fun _ _ => hid)
    (by simp only [Record.Sound, Record.startLease]; exact ⟨rfl, by omega, by omega⟩)
    (s.ready.erase id) s.dead (h.ready_nodup.erase id) h.dead_nodup (fun x => ?_) (fun x => ?_)
  · rw [h.ready_nodup.mem_erase_iff]
    by_cases hx : x = id
    · simp [hx, Record.startLease]
    · simp [hx]
  · by_cases hx : x = id
    · simp [hx, hdead, Record.startLease, State.isParked]
    · simp [hx]

theorem leaseFirst (h : WellFormed o.maxAttempts s) :
    WellFormed o.maxAttempts (s.leaseFirst o token now).1 := by
  unfold Store.leaseFirst
  split
  · exact h.lease ‹_›
  · exact h

theorem take (h : WellFormed o.maxAttempts s) : WellFormed o.maxAttempts (s.take o token now).1 :=
  have he := Store.take_entries s o token now
  h.reclaimExpired.leaseFirst.of_entries he.1 he.2.1 he.2.2

theorem extendLease (h : WellFormed o.maxAttempts s) (hr : s.find? id = some r) {t u : Stamp}
    (hd : r.state = .dequeued t) :
    WellFormed o.maxAttempts (s.modifyRecord id (·.extendLease u)) := by
  have hs := h.sound id r hr
  simp only [Record.Sound, hd] at hs
  have hready := h.not_mem_ready hr (by simp [hd])
  have hdead := h.not_mem_dead hr (by simp [hd, State.isParked])
  refine h.update (f := (·.extendLease u)) hr (fun _ h => h)
    (by simp only [Record.Sound, Record.extendLease]; exact hs) s.ready s.dead h.ready_nodup
    h.dead_nodup
    (fun x => ?_) (fun x => ?_)
  · by_cases hx : x = id
    · simp [hx, hready, Record.extendLease]
    · simp [hx]
  · by_cases hx : x = id
    · simp [hx, hdead, Record.extendLease, State.isParked]
    · simp [hx]

theorem erase (h : WellFormed o.maxAttempts s) (hr : s.find? id = some r) {t : Stamp}
    (hd : r.state = .dequeued t) {c : Counters} :
    WellFormed o.maxAttempts
      { s with records := s.records.filter (·.id != id), counters := c } := by
  have hready := h.not_mem_ready hr (by simp [hd])
  have hdead := h.not_mem_dead hr (by simp [hd, State.isParked])
  refine ⟨h.ids_nodup.sublist (List.filter_sublist.map _), h.ready_nodup, h.dead_nodup,
    fun x => ?_, fun x => ?_, fun x r' => ?_⟩
  · change x ∈ s.ready ↔ _
    rw [find?_filter_id]
    by_cases hx : x = id
    · simp [hx, hready]
    · simp [hx, h.mem_ready x]
  · change x ∈ s.dead ↔ _
    rw [find?_filter_id]
    by_cases hx : x = id
    · simp [hx, hdead]
    · simp [hx, h.mem_dead x]
  · rw [find?_filter_id]
    by_cases hx : x = id
    · simp [hx]
    · simp only [hx, if_false]; exact h.sound x r'

theorem revive (h : WellFormed o.maxAttempts s) (hmax : 0 < o.maxAttempts)
    (hr : s.find? id = some r) {t : Stamp} (hd : r.state = .deadLettered t) {c : Counters} :
    WellFormed o.maxAttempts
      { s.modifyRecord id (·.revive now) with
          dead := s.dead.filter (· != id), ready := s.ready ++ [id], counters := c } := by
  have hs := h.sound id r hr
  simp only [Record.Sound, hd] at hs
  have hready := h.not_mem_ready hr (by simp [hd])
  refine of_entries (s := { s.modifyRecord id (·.revive now) with
      ready := s.ready ++ [id], dead := s.dead.filter (· != id) }) ?_ rfl rfl rfl
  refine h.update (f := (·.revive now)) hr (fun _ h => h)
    (by simp only [Record.Sound, Record.revive]; exact ⟨hs.1, hmax⟩) (s.ready ++ [id])
    (s.dead.filter (· != id)) (by rw [← List.concat_eq_append]; exact h.ready_nodup.concat hready)
    (h.dead_nodup.sublist List.filter_sublist) (fun x => ?_) (fun x => ?_)
  · by_cases hx : x = id
    · simp [hx, Record.revive]
    · simp [hx]
  · by_cases hx : x = id
    · simp [hx, Record.revive, State.isParked]
    · simp [hx]

/-- With a well-formed store every dead letter is listed, in the order of the dead letters. -/
theorem deadLetters_ids (h : s.WellFormed max) : s.deadLetters.map (·.id) = s.dead := by
  have key : ∀ ids : List String, (∀ x ∈ ids, x ∈ s.dead) →
      (ids.filterMap fun id => (s.find? id).bind fun r =>
        match r.state with
        | .deadLettered t => some (⟨r.id, r.payload, r.attempts, r.lastError, r.createdAt, t⟩ :
            DeadLetter)
        | _ => none).map (·.id) = ids := by
    intro ids hids
    induction ids with
    | nil => rfl
    | cons x ids ih =>
      obtain ⟨r, hr, hp⟩ := (h.mem_dead x).1 (hids x (by simp))
      have hid := (Store.find?_spec hr).2
      cases hs : r.state with
      | deadLettered t => simp [hr, hs, hid, ih fun y hy => hids y (by simp [hy])]
      | _ => simp [hs, State.isParked] at hp
  exact key s.dead fun _ hx => hx

end Store.WellFormed

variable {o : Options} {w w' : World}

/-- Every call and every tick keeps the representation invariant of the store. -/
theorem Step.wellFormed (hs : Step o w w') (hmax : 0 < o.maxAttempts)
    (h : w.store.WellFormed o.maxAttempts) : w'.store.WellFormed o.maxAttempts := by
  cases hs with
  | tick => exact h
  | call op hf =>
    show (op.run o w.clock w.store).1.WellFormed o.maxAttempts
    cases op with
    | enqueue id p => exact h.enqueue hmax hf
    | take token => exact h.take
    | renew id token ext =>
      rcases Store.renew_cases w.store id token ext w.clock with e | ⟨r, hr, ho, e⟩
      · simp only [Op.run, e]; exact h
      · obtain ⟨t, ht, -⟩ := Record.isOwnedBy_iff.1 ho
        simp only [Op.run, e]; exact h.extendLease hr ht
    | complete id token =>
      rcases Store.complete_cases w.store id token w.clock with e | ⟨r, hr, ho, e⟩
      · simp only [Op.run, e]; exact h
      · obtain ⟨t, ht, -⟩ := Record.isOwnedBy_iff.1 ho
        simp only [Op.run, e]; exact h.erase hr ht
    | abandon id token reason =>
      rcases Store.abandon_cases w.store o id token reason w.clock
        with e | ⟨r, hr, ho, e₁, e₂, e₃, -⟩
      · simp only [Op.run, e]; exact h
      · obtain ⟨t, ht, -⟩ := Record.isOwnedBy_iff.1 ho
        exact (h.release hr ht).of_entries e₁ e₂ e₃
    | retryDeadLetter id =>
      rcases Store.retryDeadLetter_cases w.store id w.clock with e | ⟨r, t, hr, ht, e⟩
      · simp only [Op.run, e]; exact h
      · simp only [Op.run, e]; exact h.revive hmax hr ht
    | reap at_ => exact h.reclaimExpired.of_entries rfl rfl rfl
    | forceLeaseExpiry id =>
      rcases Store.forceLeaseExpiry_cases w.store id w.clock with e | ⟨r, t, hr, ht, e⟩
      · simp only [Op.run, e]; exact h
      · simp only [Op.run, e]; exact h.extendLease hr ht
    | deleteQueue => exact Store.WellFormed.empty

end Backplane.Queue
