import Mathlib.Data.List.Dedup
import Backplane.Proofs.Queue.WellFormed

/-!
# The order of the dead letters

The dead letters of a queue are kept in the order the entries were parked. Instants cannot
say that order: a reap runs at an instant of its own, earlier or later than the clock. The
events can: every parking reports a `deadLettered` event, in order, and an entry brought back
and parked again counts at its latest parking. So the dead letters are the parked entries of
the store in the order of their latest `deadLettered` event (`Store.ParkOrder`).

`reachable_representation` puts this together with the invariant of `WellFormed`: it holds in
every queue reached from an empty one.
-/

namespace Backplane

theorem dedup_append_eq_filter {α : Type} [DecidableEq α] (l₁ l₂ : List α) :
    (l₁ ++ l₂).dedup = l₁.dedup.filter (fun x => x ∉ l₂) ++ l₂.dedup := by
  induction l₁ with
  | nil => simp
  | cons a l₁ ih =>
    by_cases h₁ : a ∈ l₁
    · rw [List.cons_append, List.dedup_cons_of_mem (List.mem_append_left _ h₁),
        List.dedup_cons_of_mem h₁, ih]
    · rw [List.dedup_cons_of_notMem h₁]
      by_cases h₂ : a ∈ l₂
      · rw [List.cons_append, List.dedup_cons_of_mem (List.mem_append_right _ h₂), ih]
        simp [h₂]
      · rw [List.cons_append, List.dedup_cons_of_notMem (by simp [h₁, h₂]), ih]
        simp [h₂]

namespace Queue

/-- The entry an event reports parked as a dead letter. -/
def Event.parked? : Event → Option String
  | .deadLettered id .. => some id
  | _ => none

/-- The entries a list of events reports parked, in order. -/
def parkedIds (evs : List Event) : List String := evs.filterMap Event.parked?

@[simp] theorem parkedIds_append (l₁ l₂ : List Event) :
    parkedIds (l₁ ++ l₂) = parkedIds l₁ ++ parkedIds l₂ := List.filterMap_append

/-- Whether a store holds an entry as a dead letter. -/
def Store.isParked (s : Store) (id : String) : Bool := (s.find? id).any (·.state.isParked)

/-- The dead letters of a store are the entries it holds parked, each at its latest parking,
in the order the events report those parkings. -/
def Store.ParkOrder (s : Store) (evs : List Event) : Prop :=
  s.dead = (parkedIds evs).dedup.filter s.isParked

namespace Store

variable {s : Store} {id : String} {r : Record} {f : Record → Record}

theorem isParked_modifyRecord (hf : ∀ r, r.id = id → (f r).id = id) (hr : s.find? id = some r)
    (x : String) :
    (s.modifyRecord id f).isParked x = if x = id then (f r).state.isParked else s.isParked x := by
  unfold isParked
  rw [find?_modifyRecord_eq hf hr]
  by_cases hx : x = id <;> simp [hx]

theorem isParked_modifyRecord_eq (hf : ∀ r, r.id = id → (f r).id = id)
    (hr : s.find? id = some r) (hn : r.state.isParked = false)
    (hn' : (f r).state.isParked = false) : (s.modifyRecord id f).isParked = s.isParked := by
  funext x
  rw [isParked_modifyRecord hf hr]
  by_cases hx : x = id
  · subst hx; simp [isParked, hr, hn, hn']
  · simp [hx]

theorem WellFormed.isParked_of_mem_dead {max : Nat} (h : WellFormed max s) {x : String}
    (hx : x ∈ s.dead) : s.isParked x = true := by
  obtain ⟨r, hr, hp⟩ := (h.mem_dead x).1 hx
  simp [isParked, hr, hp]

end Store

namespace Store.ParkOrder

variable {s s' : Store} {o : Options} {L M : List Event} {id token : String} {r : Record}
  {now : Stamp}

/-! ## Three shapes of change

A change unparks some entries and parks none (`keep`), or parks one entry that was not
parked (`park`); `of_entries` lets the counters change freely. -/

theorem of_entries (h : s.ParkOrder L) (hr : s'.records = s.records) (hd : s'.dead = s.dead) :
    s'.ParkOrder L := by
  have hp : s'.isParked = s.isParked := by funext x; simp [isParked, find?, hr]
  unfold ParkOrder; rw [hd, hp]; exact h

/-- A change that parks nothing and unparks some entries keeps the order of the others. -/
theorem keep (h : s.ParkOrder L) (hd : s'.dead = s.dead.filter s'.isParked)
    (hp : ∀ x, s'.isParked x = true → s.isParked x = true) (hM : parkedIds M = []) :
    s'.ParkOrder (L ++ M) := by
  unfold ParkOrder at h ⊢
  rw [hd, h, parkedIds_append, hM, List.append_nil, List.filter_filter]
  refine List.filter_congr fun x _ => ?_
  cases h' : s'.isParked x
  · rfl
  · simp [hp x h']

/-- Parking one more entry puts it at the end of the dead letters. -/
theorem park (h : s.ParkOrder L) (hn : s.isParked id = false) (hd : s'.dead = s.dead ++ [id])
    (hp : ∀ x, s'.isParked x = (s.isParked x || x == id)) (hM : parkedIds M = [id]) :
    s'.ParkOrder (L ++ M) := by
  unfold ParkOrder at h ⊢
  rw [hd, h, parkedIds_append, hM, dedup_append_eq_filter, List.filter_append, List.filter_filter]
  have hid : s'.isParked id = true := by simp [hp]
  rw [List.dedup_cons_of_notMem (List.not_mem_nil), List.dedup_nil]
  simp only [List.filter_cons, hid, if_true, List.filter_nil]
  -- an earlier parking of `id` is dropped on both sides: it was not parked before
  congr 1
  refine List.filter_congr fun x _ => ?_
  by_cases hx : x = id
  · subst hx; simp [hn]
  · simp [hp, hx]

theorem keep_dead (h : s.ParkOrder L) (hd : s'.dead = s.dead)
    (hk : ∀ x ∈ s.dead, s'.isParked x = true)
    (hp : ∀ x, s'.isParked x = true → s.isParked x = true) (hM : parkedIds M = []) :
    s'.ParkOrder (L ++ M) :=
  h.keep (by rw [hd, List.filter_eq_self.2 hk]) hp hM

theorem of_same (h : s.ParkOrder L) (hd : s'.dead = s.dead) (hp : s'.isParked = s.isParked)
    (hw : s.WellFormed o.maxAttempts) (hM : parkedIds M = []) : s'.ParkOrder (L ++ M) :=
  h.keep_dead hd (fun x hx => hp ▸ hw.isParked_of_mem_dead hx) (fun x => by rw [hp]; exact id) hM

/-! ## Each change of the store -/

/-- Handing back a leased entry parks it at the end of the dead letters, or parks nothing. -/
theorem release {reason : Option String} {timedOut : Bool} (h : s.ParkOrder L)
    (hw : s.WellFormed o.maxAttempts) (hr : s.find? id = some r) {t : Stamp}
    (hd : r.state = .dequeued t) :
    (s.release o id reason timedOut now).1.ParkOrder
      (L ++ (s.release o id reason timedOut now).2) := by
  have hn : r.state.isParked = false := by simp [hd, State.isParked]
  by_cases hm : o.maxAttempts ≤ r.attempts
  · rw [release_park hr hm]
    refine h.park (by simp [isParked, hr, hn]) rfl (fun x => ?_) (by cases timedOut <;> rfl)
    change (s.modifyRecord id _).isParked x = _
    rw [isParked_modifyRecord (f := (·.deadLetter now reason)) (fun _ h => h) hr]
    by_cases hx : x = id
    · simp [hx, Record.deadLetter, State.isParked]
    · simp [hx]
  · rw [release_requeue hr (by omega)]
    exact h.of_same rfl (isParked_modifyRecord_eq (fun _ h => h) hr hn rfl) hw
      (by cases timedOut <;> rfl)

theorem releaseEach {ids : List String} (h : s.ParkOrder L) (hw : s.WellFormed o.maxAttempts)
    (hn : ids.Nodup) (hd : ∀ id ∈ ids, ∃ r t, s.find? id = some r ∧ r.state = .dequeued t) :
    (Store.releaseEach o now ids s).1.ParkOrder (L ++ (Store.releaseEach o now ids s).2) := by
  induction ids generalizing s L with
  | nil => simpa [Store.releaseEach] using h
  | cons id ids ih =>
    obtain ⟨r, t, hr, ht⟩ := hd id (by simp)
    have hn' := List.nodup_cons.1 hn
    rw [releaseEach_cons, ← List.append_assoc]
    refine ih (h.release hw hr ht) (hw.release hr ht) hn'.2 fun x hx => ?_
    have hne : x ≠ id := fun e => hn'.1 (e ▸ hx)
    rw [find?_release_of_ne hne]
    exact hd x (by simp [hx])

theorem reclaimExpired (h : s.ParkOrder L) (hw : s.WellFormed o.maxAttempts) :
    (s.reclaimExpired o now).1.ParkOrder (L ++ (s.reclaimExpired o now).2) := by
  rw [reclaimExpired_eq]
  refine h.releaseEach hw (expiredIds_nodup hw.ids_nodup) fun x hx => ?_
  obtain ⟨r, t, hr, ht, -⟩ := expiredIds_spec hw.ids_nodup hx
  exact ⟨r, t, hr, ht⟩

theorem leaseFirst (h : s.ParkOrder L) (hw : s.WellFormed o.maxAttempts)
    (hM : parkedIds M = []) : (s.leaseFirst o token now).1.ParkOrder (L ++ M) := by
  unfold Store.leaseFirst
  split
  · rename_i id ha
    obtain ⟨-, r, hr, he, -⟩ := firstAvailable?_spec ha
    have hid := (find?_spec hr).2
    rw [lease_of_find? hr]
    exact h.of_same rfl (isParked_modifyRecord_eq (fun _ _ => hid) hr (by simp [he, State.isParked])
      rfl) hw hM
  · exact h.of_same rfl rfl hw hM

theorem take (h : s.ParkOrder L) (hw : s.WellFormed o.maxAttempts) :
    (s.take o token now).1.ParkOrder (L ++ (s.take o token now).2.1) := by
  have h₁ : (s.reclaimExpired o now).1.ParkOrder (L ++ (s.reclaimExpired o now).2) :=
    h.reclaimExpired hw
  have hw₁ : (s.reclaimExpired o now).1.WellFormed o.maxAttempts := hw.reclaimExpired
  unfold Store.take; dsimp only
  split
  · rw [← List.append_assoc]
    exact (h₁.leaseFirst hw₁ rfl).of_entries rfl rfl
  · have h₂ : ((s.reclaimExpired o now).1.leaseFirst o token now).1.ParkOrder
        (L ++ (s.reclaimExpired o now).2 ++ []) := h₁.leaseFirst hw₁ rfl
    rw [List.append_nil] at h₂
    exact h₂.of_entries rfl rfl

theorem enqueue {p : Bytes} (h : s.ParkOrder L) (hw : s.WellFormed o.maxAttempts)
    (hfresh : id ∉ s.records.map (·.id)) (hM : parkedIds M = []) :
    (s.enqueue id p now).1.ParkOrder (L ++ M) := by
  refine h.of_same rfl ?_ hw hM
  funext x
  unfold isParked
  rw [find?_enqueue hfresh]
  by_cases hx : x = id
  · subst hx; simp [find?_eq_none.2 hfresh, Record.fresh, State.isParked]
  · simp [hx]

theorem extendLease (h : s.ParkOrder L) (hw : s.WellFormed o.maxAttempts)
    (hr : s.find? id = some r) {t u : Stamp} (hd : r.state = .dequeued t)
    (hM : parkedIds M = []) : (s.modifyRecord id (·.extendLease u)).ParkOrder (L ++ M) :=
  h.of_same rfl (isParked_modifyRecord_eq (fun _ h => h) hr (by simp [hd, State.isParked]) rfl)
    hw hM

theorem erase (h : s.ParkOrder L) (hw : s.WellFormed o.maxAttempts) (hr : s.find? id = some r)
    {t : Stamp} (hd : r.state = .dequeued t) {c : Counters} (hM : parkedIds M = []) :
    ({ s with records := s.records.filter (·.id != id), counters := c } : Store).ParkOrder
      (L ++ M) := by
  refine h.of_same rfl ?_ hw hM
  funext x
  unfold isParked
  rw [find?_filter_id]
  by_cases hx : x = id
  · subst hx; simp [hr, hd, State.isParked]
  · simp [hx]

/-- Bringing a dead letter back unparks it and keeps the order of the others. -/
theorem revive (h : s.ParkOrder L) (hw : s.WellFormed o.maxAttempts) (hr : s.find? id = some r)
    {c : Counters} (hM : parkedIds M = []) :
    ({ s.modifyRecord id (·.revive now) with
        dead := s.dead.filter (· != id), ready := s.ready ++ [id], counters := c } :
      Store).ParkOrder (L ++ M) := by
  have hp : ∀ x, ({ s.modifyRecord id (·.revive now) with
        dead := s.dead.filter (· != id), ready := s.ready ++ [id], counters := c } :
      Store).isParked x = if x = id then false else s.isParked x := by
    intro x
    change (s.modifyRecord id _).isParked x = _
    rw [isParked_modifyRecord (f := (·.revive now)) (fun _ h => h) hr]
    simp [Record.revive, State.isParked]
  refine h.keep ?_ (fun x hx => ?_) hM
  · refine List.filter_congr fun x hx => ?_
    rw [hp]
    by_cases hxi : x = id
    · simp [hxi]
    · simp [hxi, hw.isParked_of_mem_dead hx]
  · rw [hp] at hx
    by_cases hxi : x = id
    · simp [hxi] at hx
    · simpa [hxi] using hx

theorem deleteQueue (h : s.ParkOrder L) (hM : parkedIds M = []) :
    ({} : Store).ParkOrder (L ++ M) := by
  have hp : ({} : Store).isParked = fun _ => false := by funext x; simp [isParked, find?]
  refine h.keep ?_ (fun x hx => by simp [hp] at hx) hM
  simp [hp]

end Store.ParkOrder

variable {o : Options} {w w' : World}

theorem Step.parkOrder (hs : Step o w w') (hw : w.store.WellFormed o.maxAttempts)
    (h : w.store.ParkOrder w.events) : w'.store.ParkOrder w'.events := by
  cases hs with
  | tick => exact h
  | call op hf =>
    show (op.run o w.clock w.store).1.ParkOrder (w.events ++ (op.run o w.clock w.store).2)
    cases op with
    | enqueue id p => exact h.enqueue hw hf rfl
    | take token => exact h.take hw
    | renew id token ext =>
      rcases Store.renew_cases w.store id token ext w.clock with e | ⟨r, hr, ho, e⟩
      · simpa [Op.run, e] using h
      · obtain ⟨t, ht, -⟩ := Record.isOwnedBy_iff.1 ho
        simp only [Op.run, e]; exact h.extendLease hw hr ht rfl
    | complete id token =>
      rcases Store.complete_cases w.store id token w.clock with e | ⟨r, hr, ho, e⟩
      · simpa [Op.run, e] using h
      · obtain ⟨t, ht, -⟩ := Record.isOwnedBy_iff.1 ho
        simp only [Op.run, e]; exact h.erase hw hr ht rfl
    | abandon id token reason =>
      rcases Store.abandon_cases w.store o id token reason w.clock
        with e | ⟨r, hr, ho, e₁, -, e₃, e₄⟩
      · simpa [Op.run, e] using h
      · obtain ⟨t, ht, -⟩ := Record.isOwnedBy_iff.1 ho
        simp only [Op.run, e₄, Option.getD_some]
        exact (h.release hw hr ht).of_entries e₁ e₃
    | retryDeadLetter id =>
      rcases Store.retryDeadLetter_cases w.store id w.clock with e | ⟨r, t, hr, -, e⟩
      · simpa [Op.run, e] using h
      · simp only [Op.run, e]; exact h.revive hw hr rfl
    | reap at_ => exact (h.reclaimExpired hw).of_entries rfl rfl
    | forceLeaseExpiry id =>
      rcases Store.forceLeaseExpiry_cases w.store id w.clock with e | ⟨r, t, hr, ht, e⟩
      · simpa [Op.run, e] using h
      · simp only [Op.run, e]; exact h.extendLease hw hr ht rfl
    | deleteQueue => exact h.deleteQueue rfl

/-! ## The representation invariant -/

/-- The representation invariant of an in-memory queue. From an empty queue whose options
passed validation, after any calls and any passing of time, the line holds each waiting entry
once and nothing else; the dead letters hold each parked entry once, in the order of its
latest parking as the queue's events report them, and are listed in that order; a leased
entry is in neither; and every entry's state fixes whether it holds a lease token and how
many deliveries it has used (`Record.Sound`). -/
theorem reachable_representation (ho : o.validate = .ok ()) (hw : Reachable o w) :
    w.store.WellFormed o.maxAttempts ∧ w.store.ParkOrder w.events ∧
      w.store.deadLetters.map (·.id) = w.store.dead ∧
      ∀ id r t, w.store.find? id = some r → r.state = .dequeued t →
        id ∉ w.store.ready ∧ id ∉ w.store.dead := by
  have hmax := Options.validate_maxAttempts ho
  obtain ⟨t₀, hr⟩ := hw
  -- both invariants ride along the run together: the park order needs a well-formed store
  have inv : w.store.WellFormed o.maxAttempts ∧ w.store.ParkOrder w.events := by
    induction hr with
    | refl => exact ⟨Store.WellFormed.empty, rfl⟩
    | tail _ hs ih => exact ⟨hs.wellFormed hmax ih.1, hs.parkOrder ih.1 ih.2⟩
  refine ⟨inv.1, inv.2, inv.1.deadLetters_ids, fun id r t hr hd => ?_⟩
  exact ⟨inv.1.not_mem_ready hr (by simp [hd]),
    inv.1.not_mem_dead hr (by simp [hd, State.isParked])⟩

/-- A queue with one delivery per entry, whose only entry is taken and reclaimed after its
lease ran out, so that it is parked. -/
theorem reachable_representation_parked :
    let o : Options := { Options.default with maxAttempts := 1 }
    let w := (((World.empty ⟨0⟩).call o (.enqueue "a" [])).call o (.take "k")).call o
      (.reap ⟨300000000000⟩)
    o.validate = .ok () ∧ Reachable o w ∧
      (w.store.WellFormed o.maxAttempts ∧ w.store.ParkOrder w.events ∧
        w.store.deadLetters.map (·.id) = w.store.dead ∧
        ∀ id r t, w.store.find? id = some r → r.state = .dequeued t →
          id ∉ w.store.ready ∧ id ∉ w.store.dead) := by
  intro o w
  have ho : o.validate = .ok () := rfl
  have hw : Reachable o w :=
    ⟨⟨0⟩, .tail (.tail (.single (Step.call (.enqueue "a" []) (by simp [Op.Fresh, World.empty])))
      (Step.call (.take "k") (by simp [Op.Fresh, World.tokens, World.call, World.empty,
        Op.delivery]))) (Step.call (.reap ⟨300000000000⟩) trivial)⟩
  exact ⟨ho, hw, reachable_representation ho hw⟩

example : ((((World.empty ⟨0⟩).call { Options.default with maxAttempts := 1 }
      (.enqueue "a" [])).call { Options.default with maxAttempts := 1 } (.take "k")).call
      { Options.default with maxAttempts := 1 } (.reap ⟨300000000000⟩)).store.dead = ["a"] := by
  decide

end Queue

end Backplane
