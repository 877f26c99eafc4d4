import Backplane.Proofs.Queue.WellFormed

/-!
# The life of an entry, as its events tell it

Every change of an entry is announced by events, emitted in the order of the calls. Read per
entry, they follow an automaton (`Phase.next`): an entry is added (`queued`), delivered
(`working`), renewed, then completed, abandoned back into line, or its lease runs out
(`expired`); after its last delivery it is parked as a dead letter (`dead`), and a dead letter
may be brought back into line. The phases count the deliveries since the entry was last put in
line, so the deliveries announced since then carry the attempts 1, 2, 3, …, a dead letter is
announced exactly after the delivery whose attempt is the last one, and a hand-back before it
never parks.

* `Store.Agrees`: for every id, the events about it are accepted from `start`, and the phase
  they reach stands for the entry's record (`Phase.Matches`).
* `Agrees.change`: a change of one entry, announced by events about it alone, keeps the
  agreement when the automaton takes the entry's phase to one that stands for its new record.
  Each change of the store is an instance of it.
* `events_follow_lifecycle`: the agreement holds in every queue reached from an empty one by
  calls that keep to fresh ids and do not delete the queue.

Fresh ids matter: the host draws entry ids from a counter, so an id is never added twice, while
a completed entry's id may leave the store. A queue that took such an id again would restart an
entry whose events already reached `completed`.
-/

namespace Backplane.Queue

/-- The entry an event is about. -/
def Event.entry : Event → String
  | .enqueued id .. | .dequeued id .. | .lockRenewed id .. | .completed id .. | .abandoned id ..
  | .leaseExpired id .. | .deadLettered id .. => id

/-- Where an entry is in its life; `n` counts its deliveries since it was last put in line. -/
inductive Phase where
  | start
  | queued (n : Nat)
  | working (n : Nat)
  | expired (n : Nat)
  | dead
  | completed
  deriving Repr, DecidableEq

namespace Phase

/-- One event about an entry, in a queue that parks an entry after `max` deliveries; `none`
when the event cannot come in this phase. -/
def next (max : Nat) : Phase → Event → Option Phase
  | .start, .enqueued .. | .dead, .enqueued .. => some (.queued 0)
  | .queued n, .dequeued _ a .. | .expired n, .dequeued _ a .. =>
    if a = n + 1 ∧ n < max then some (.working a) else none
  | .working n, .lockRenewed .. => some (.working n)
  | .working _, .completed .. => some .completed
  | .working n, .abandoned _ a .. => if a = n ∧ n < max then some (.queued n) else none
  | .working n, .leaseExpired _ a _ => if a = n then some (.expired n) else none
  | .working n, .deadLettered _ a .. | .expired n, .deadLettered _ a .. =>
    if a = n ∧ n = max then some .dead else none
  | _, _ => none

/-- Follow the events about an entry; `none` when one of them cannot come. -/
def run (max : Nat) : Phase → List Event → Option Phase
  | p, [] => some p
  | p, e :: es => (p.next max e).bind fun q => run max q es

variable {max : Nat} {p : Phase}

@[simp] theorem run_nil : run max p [] = some p := rfl

theorem run_append (l₁ l₂ : List Event) :
    run max p (l₁ ++ l₂) = (run max p l₁).bind fun q => run max q l₂ := by
  induction l₁ generalizing p with
  | nil => rfl
  | cons e l₁ ih =>
    simp only [List.cons_append, run]
    cases p.next max e <;> simp [ih]

/-- The record a phase stands for: none before the entry was added and after it was completed;
a waiting entry for `queued` and `expired`, a leased one for `working`, a parked one after its
last delivery for `dead`; with its deliveries counted. -/
def Matches (max : Nat) : Phase → Option Record → Prop
  | .start, none | .completed, none => True
  | .queued n, some r | .expired n, some r => r.state = .enqueued ∧ r.attempts = n
  | .working n, some r => (∃ t, r.state = .dequeued t) ∧ r.attempts = n
  | .dead, some r => r.state.isParked ∧ r.attempts = max
  | _, _ => False

theorem eq_working_of_matches {r : Record} {t : Stamp} (hm : p.Matches max (some r))
    (hd : r.state = .dequeued t) : p = .working r.attempts := by
  cases p <;> simp_all [Matches, State.isParked]

theorem waiting_of_matches {r : Record} (hm : p.Matches max (some r))
    (he : r.state = .enqueued) : p = .queued r.attempts ∨ p = .expired r.attempts := by
  cases p <;> simp_all [Matches, State.isParked]

theorem eq_dead_of_matches {r : Record} {t : Stamp} (hm : p.Matches max (some r))
    (hd : r.state = .deadLettered t) : p = .dead := by
  cases p <;> simp_all [Matches]

end Phase

/-- A consumer's attempt announces what its reclaim announces, then the delivery it makes. -/
theorem Store.take_events (s : Store) (o : Options) (token : String) (now : Stamp) :
    (s.take o token now).2.1 = (s.reclaimExpired o now).2 ++
      ((s.take o token now).2.2.map fun e =>
        Event.dequeued e.id e.attempts e.leaseUntil now).toList := by
  unfold Store.take; dsimp only
  split <;> simp

/-- The events tell the life of every entry of the store: for every id, the events about it are
accepted from `start`, and the phase they reach stands for its record. -/
def Store.Agrees (max : Nat) (s : Store) (evs : List Event) : Prop :=
  ∀ id, ∃ p, Phase.run max .start (evs.filter (·.entry == id)) = some p ∧
    p.Matches max (s.find? id)

namespace Store.Agrees

variable {max : Nat} {s s' : Store} {o : Options} {L M : List Event} {id x token : String}
  {r : Record} {now : Stamp}

theorem empty : ({} : Store).Agrees max [] :=
  fun _ => ⟨.start, rfl, by simp [Phase.Matches, find?]⟩

theorem of_records (h : s.Agrees max L) (hr : s'.records = s.records) : s'.Agrees max L := by
  have hf : ∀ id, s'.find? id = s.find? id := fun id => by simp [find?, hr]
  intro id
  rw [hf]
  exact h id

/-- A change of entry `x` alone, announced by events about `x` alone, keeps the agreement when
the automaton takes the phase of `x` to one that stands for its new record. -/
theorem change (h : s.Agrees max L) (hM : ∀ e ∈ M, e.entry = x)
    (hother : ∀ y, y ≠ x → s'.find? y = s.find? y)
    (hx : ∀ p, Phase.run max .start (L.filter (·.entry == x)) = some p →
      p.Matches max (s.find? x) →
        ∃ q, Phase.run max p M = some q ∧ q.Matches max (s'.find? x)) :
    s'.Agrees max (L ++ M) := by
  intro y
  obtain ⟨p, hp, hm⟩ := h y
  rw [List.filter_append, Phase.run_append, hp, Option.bind_some]
  by_cases hy : y = x
  · subst hy
    have hf : M.filter (·.entry == y) = M := List.filter_eq_self.2 fun e he => by simp [hM e he]
    rw [hf]
    exact hx p hp hm
  · have hf : M.filter (·.entry == y) = [] :=
      List.filter_eq_nil_iff.2 fun e he => by simp [hM e he, Ne.symm hy]
    rw [hf, hother y hy]
    exact ⟨p, rfl, hm⟩

theorem change_leased (h : s.Agrees max L) (hr : s.find? x = some r) {t : Stamp}
    (hd : r.state = .dequeued t) (hM : ∀ e ∈ M, e.entry = x)
    (hother : ∀ y, y ≠ x → s'.find? y = s.find? y)
    (hx : ∃ q, Phase.run max (.working r.attempts) M = some q ∧ q.Matches max (s'.find? x)) :
    s'.Agrees max (L ++ M) := by
  refine h.change hM hother fun p _ hm => ?_
  rw [hr] at hm
  rw [Phase.eq_working_of_matches hm hd]
  exact hx

/-! ## Each change of the store -/

section release

variable {reason : Option String} {timedOut : Bool}

/-- A hand-back announces a lease run out, then a dead letter after the last delivery or, for an
abandoned entry, its return to the line; the automaton follows. -/
theorem release (h : s.Agrees o.maxAttempts L) (hw : s.WellFormed o.maxAttempts)
    (hr : s.find? id = some r) {t : Stamp} (hd : r.state = .dequeued t) :
    (s.release o id reason timedOut now).1.Agrees o.maxAttempts
      (L ++ (s.release o id reason timedOut now).2) := by
  have hs := hw.sound id r hr
  simp only [Record.Sound, hd] at hs
  have hother : ∀ y, y ≠ id → (s.release o id reason timedOut now).1.find? y = s.find? y :=
    fun y hy => find?_release_of_ne hy
  by_cases hm : o.maxAttempts ≤ r.attempts
  · -- the last delivery is used up: the entry is parked
    have hmax : r.attempts = o.maxAttempts := by omega
    have hnew : (s.release o id reason timedOut now).1.find? id =
        some (r.deadLetter now reason) := by
      rw [release_park hr hm]
      exact (find?_modifyRecord_eq (f := (·.deadLetter now reason)) (x := id) (fun _ h => h)
        hr).trans (if_pos rfl)
    refine h.change_leased hr hd ?_ hother ⟨.dead, ?_, ?_⟩
    · rw [release_park hr hm]
      cases timedOut <;> simp [Event.entry]
    · rw [release_park hr hm]
      cases timedOut <;> simp [Phase.run, Phase.next, hmax]
    · rw [hnew]
      exact ⟨by simp [Record.deadLetter, State.isParked], hmax⟩
  · -- an earlier delivery: the entry goes back in line with its deliveries
    have hlt : r.attempts < o.maxAttempts := by omega
    have hnew : (s.release o id reason timedOut now).1.find? id =
        some (r.requeue (now.addOrMax (o.retryDelayFor r.attempts)) reason) := by
      rw [release_requeue hr hlt]
      exact (find?_modifyRecord_eq
        (f := (·.requeue (now.addOrMax (o.retryDelayFor r.attempts)) reason)) (x := id)
        (fun _ h => h) hr).trans (if_pos rfl)
    have hmatch : ∀ q : Phase, (q = .queued r.attempts ∨ q = .expired r.attempts) →
        q.Matches o.maxAttempts ((s.release o id reason timedOut now).1.find? id) := by
      rintro q (rfl | rfl) <;> exact hnew ▸ ⟨rfl, rfl⟩
    cases timedOut
    · refine h.change_leased hr hd ?_ hother ⟨.queued r.attempts, ?_, hmatch _ (.inl rfl)⟩
      · rw [release_requeue hr hlt]; simp [Event.entry]
      · rw [release_requeue hr hlt]; simp [Phase.run, Phase.next, hlt]
    · refine h.change_leased hr hd ?_ hother ⟨.expired r.attempts, ?_, hmatch _ (.inr rfl)⟩
      · rw [release_requeue hr hlt]; simp [Event.entry]
      · rw [release_requeue hr hlt]; simp [Phase.run, Phase.next]

end release

theorem releaseEach {ids : List String} (h : s.Agrees o.maxAttempts L)
    (hw : s.WellFormed o.maxAttempts) (hn : ids.Nodup)
    (hd : ∀ id ∈ ids, ∃ r t, s.find? id = some r ∧ r.state = .dequeued t) :
    (Store.releaseEach o now ids s).1.Agrees o.maxAttempts
      (L ++ (Store.releaseEach o now ids s).2) := by
  induction ids generalizing s L with
  | nil => simpa [Store.releaseEach] using h
  | cons id ids ih =>
    obtain ⟨r, t, hr, ht⟩ := hd id (by simp)
    have hn' := List.nodup_cons.1 hn
    rw [releaseEach_cons, ← List.append_assoc]
    -- the other expired entries are still leased: releasing `id` touched only its own entry
    refine ih (h.release hw hr ht) (hw.release hr ht) hn'.2 fun x hx => ?_
    have hne : x ≠ id := fun e => hn'.1 (e ▸ hx)
    rw [find?_release_of_ne hne]
    exact hd x (by simp [hx])

theorem reclaimExpired (h : s.Agrees o.maxAttempts L) (hw : s.WellFormed o.maxAttempts) :
    (s.reclaimExpired o now).1.Agrees o.maxAttempts (L ++ (s.reclaimExpired o now).2) := by
  rw [reclaimExpired_eq]
  refine h.releaseEach hw (expiredIds_nodup hw.ids_nodup) fun x hx => ?_
  obtain ⟨r, t, hr, ht, -⟩ := expiredIds_spec hw.ids_nodup hx
  exact ⟨r, t, hr, ht⟩

/-- Leasing a waiting entry announces a delivery one past its count, before its last one. -/
theorem lease (h : s.Agrees o.maxAttempts L) (hw : s.WellFormed o.maxAttempts)
    (ha : s.firstAvailable? now = some id) (hr : s.find? id = some r) :
    (s.lease o id token now).1.Agrees o.maxAttempts
      (L ++ [.dequeued id (r.attempts + 1) (now.addOrMax o.visibilityTimeout) now]) := by
  obtain ⟨-, r', hr', he, -⟩ := firstAvailable?_spec ha
  obtain rfl : r = r' := Option.some.inj (hr.symm.trans hr')
  have hs := hw.sound id r hr
  simp only [Record.Sound, he] at hs
  refine h.change (x := id) (by simp [Event.entry])
    (fun y hy => by rw [find?_lease hr, if_neg hy]) fun p _ hm => ?_
  rw [hr] at hm
  refine ⟨.working (r.attempts + 1), ?_, ?_⟩
  · rcases Phase.waiting_of_matches hm he with rfl | rfl <;> simp [Phase.run, Phase.next, hs.2]
  · rw [find?_lease hr, if_pos rfl]
    exact ⟨⟨_, rfl⟩, rfl⟩

theorem take (h : s.Agrees o.maxAttempts L) (hw : s.WellFormed o.maxAttempts) :
    (s.take o token now).1.Agrees o.maxAttempts (L ++ (s.take o token now).2.1) := by
  have h₁ : (s.reclaimExpired o now).1.Agrees o.maxAttempts (L ++ (s.reclaimExpired o now).2) :=
    h.reclaimExpired hw
  have hw₁ : (s.reclaimExpired o now).1.WellFormed o.maxAttempts := hw.reclaimExpired
  have hrec := (take_entries s o token now).1
  rw [take_events, take_leased, ← List.append_assoc]
  rcases leaseFirst_cases (s.reclaimExpired o now).1 o token now with e | ⟨id, r, ha, hr, e⟩
  · -- nothing to deliver: the reclaim alone
    rw [e, Option.map_none, Option.toList_none, List.append_nil]
    exact h₁.of_records (by rw [hrec, e])
  · rw [e, lease_of_find? hr, Option.map_some, Option.toList_some]
    exact (h₁.lease hw₁ ha hr).of_records (by rw [hrec, e])

theorem enqueue {p : Bytes} (h : s.Agrees o.maxAttempts L)
    (hfresh : id ∉ s.records.map (·.id)) (hnew : ∀ e ∈ L, e.entry ≠ id) :
    (s.enqueue id p now).1.Agrees o.maxAttempts (L ++ [(s.enqueue id p now).2]) := by
  have hL : L.filter (·.entry == id) = [] :=
    List.filter_eq_nil_iff.2 fun e he => by simpa using hnew e he
  refine h.change (x := id) (by simp [Store.enqueue, Event.entry])
    (fun y hy => by rw [find?_enqueue hfresh, if_neg hy]) fun p hp _ => ?_
  rw [hL, Phase.run_nil, Option.some.injEq] at hp
  subst hp
  refine ⟨.queued 0, by simp [Store.enqueue, Phase.run, Phase.next], ?_⟩
  rw [find?_enqueue hfresh, if_pos rfl]
  exact ⟨rfl, rfl⟩

theorem renew {ext : Duration} (h : s.Agrees o.maxAttempts L) (hr : s.find? id = some r)
    (ho : r.isOwnedBy token now = true) :
    (s.modifyRecord id (·.extendLease (now.addOrMax ext))).Agrees o.maxAttempts
      (L ++ [.lockRenewed id (now.addOrMax ext) now]) := by
  obtain ⟨t, ht, -⟩ := Record.isOwnedBy_iff.1 ho
  refine h.change_leased hr ht (by simp [Event.entry])
    (fun y hy => find?_modifyRecord_of_ne hy fun _ h => h)
    ⟨.working r.attempts, by simp [Phase.run, Phase.next], ?_⟩
  rw [find?_modifyRecord_eq (f := (·.extendLease (now.addOrMax ext))) (fun _ h => h) hr,
    if_pos rfl]
  exact ⟨⟨_, rfl⟩, rfl⟩

theorem complete {c : Counters} (h : s.Agrees o.maxAttempts L) (hr : s.find? id = some r)
    (ho : r.isOwnedBy token now = true) :
    ({ s with records := s.records.filter (·.id != id), counters := c } : Store).Agrees
      o.maxAttempts (L ++ [.completed id now]) := by
  obtain ⟨t, ht, -⟩ := Record.isOwnedBy_iff.1 ho
  refine h.change_leased hr ht (by simp [Event.entry])
    (fun y hy => by rw [find?_filter_id, if_neg hy])
    ⟨.completed, by simp [Phase.run, Phase.next], ?_⟩
  rw [find?_filter_id, if_pos rfl]
  trivial

theorem retryDeadLetter {c : Counters} (h : s.Agrees o.maxAttempts L)
    (hr : s.find? id = some r) {t : Stamp} (hd : r.state = .deadLettered t) :
    ({ s.modifyRecord id (·.revive now) with
        dead := s.dead.filter (· != id), ready := s.ready ++ [id], counters := c } :
      Store).Agrees o.maxAttempts (L ++ [.enqueued id now]) := by
  refine h.change (by simp [Event.entry])
    (fun y hy => find?_modifyRecord_of_ne hy fun _ h => h) fun p _ hm => ?_
  rw [hr] at hm
  rw [Phase.eq_dead_of_matches hm hd]
  refine ⟨.queued 0, by simp [Phase.run, Phase.next], ?_⟩
  change Phase.Matches _ _ ((s.modifyRecord id (·.revive now)).find? id)
  rw [find?_modifyRecord_eq (f := (·.revive now)) (fun _ h => h) hr, if_pos rfl]
  exact ⟨rfl, rfl⟩

/-- Letting a lease run out announces nothing: the entry stays leased until it is reclaimed. -/
theorem forceLeaseExpiry {u : Stamp} (h : s.Agrees o.maxAttempts L) (hr : s.find? id = some r)
    {t : Stamp} (hd : r.state = .dequeued t) :
    (s.modifyRecord id (·.extendLease u)).Agrees o.maxAttempts (L ++ []) := by
  refine h.change_leased hr hd (by simp)
    (fun y hy => find?_modifyRecord_of_ne hy fun _ h => h) ⟨.working r.attempts, rfl, ?_⟩
  rw [find?_modifyRecord_eq (f := (·.extendLease u)) (fun _ h => h) hr, if_pos rfl]
  exact ⟨⟨_, rfl⟩, rfl⟩

end Store.Agrees

/-! ## Runs -/

/-- Whether a call keeps to the runs whose events tell each entry's life: a new entry gets an id
no event has named, as the host's ids drawn from a counter do, and the queue is not deleted. -/
def Op.Unnamed (w : World) : Op → Prop
  | .enqueue id _ => ∀ e ∈ w.events, e.entry ≠ id
  | .deleteQueue => False
  | _ => True

/-- A step of a queue that keeps to those runs. -/
inductive LifeStep (o : Options) : World → World → Prop where
  | tick {w : World} {t : Stamp} (h : w.clock ≤ t) : LifeStep o w { w with clock := t }
  | call {w : World} (op : Op) (h : op.Fresh w) (hu : op.Unnamed w) : LifeStep o w (w.call o op)

variable {o : Options} {w w' : World}

theorem LifeStep.step (hs : LifeStep o w w') : Step o w w' := by
  cases hs with
  | tick h => exact .tick h
  | call op h => exact .call op h

theorem LifeStep.agrees (hs : LifeStep o w w') (hw : w.store.WellFormed o.maxAttempts)
    (h : w.store.Agrees o.maxAttempts w.events) :
    w'.store.Agrees o.maxAttempts w'.events := by
  cases hs with
  | tick => exact h
  | call op hf hu =>
    show (op.run o w.clock w.store).1.Agrees o.maxAttempts
      (w.events ++ (op.run o w.clock w.store).2)
    cases op with
    | enqueue id p => exact h.enqueue hf hu
    | take token => exact h.take hw
    | renew id token ext =>
      rcases Store.renew_cases w.store id token ext w.clock with e | ⟨r, hr, ho, e⟩
      · simpa [Op.run, e] using h
      · simp only [Op.run, e, Option.toList_some]; exact h.renew hr ho
    | complete id token =>
      rcases Store.complete_cases w.store id token w.clock with e | ⟨r, hr, ho, e⟩
      · simpa [Op.run, e] using h
      · simp only [Op.run, e, Option.toList_some]; exact h.complete hr ho
    | abandon id token reason =>
      rcases Store.abandon_cases w.store o id token reason w.clock
        with e | ⟨r, hr, ho, e₁, -, -, e₄⟩
      · simpa [Op.run, e] using h
      · obtain ⟨t, ht, -⟩ := Record.isOwnedBy_iff.1 ho
        simp only [Op.run, e₄, Option.getD_some]
        exact (h.release hw hr ht).of_records e₁
    | retryDeadLetter id =>
      rcases Store.retryDeadLetter_cases w.store id w.clock with e | ⟨r, t, hr, ht, e⟩
      · simpa [Op.run, e] using h
      · simp only [Op.run, e, Option.toList_some]; exact h.retryDeadLetter hr ht
    | reap at_ => exact (h.reclaimExpired hw).of_records rfl
    | forceLeaseExpiry id =>
      rcases Store.forceLeaseExpiry_cases w.store id w.clock with e | ⟨r, t, hr, ht, e⟩
      · simpa [Op.run, e] using h
      · simp only [Op.run, e]; exact h.forceLeaseExpiry hr ht
    | deleteQueue => exact hu.elim

/-- The event stream of an in-memory queue refines the life of its entries. From an empty
queue whose options passed validation, after any calls that take fresh ids and do not delete
the queue, and any passing of time: for every id, the events about it, in order, are accepted
by the automaton `Phase.next` (so the deliveries since it was last put in line carry the
attempts 1, 2, 3, …, a dead letter is announced exactly after the delivery whose attempt is the
last, and nothing follows a completion), and the phase reached stands for the entry's record:
none before it is added and after it is completed, waiting when `queued` or `expired`, leased
when `working`, parked when `dead`. -/
theorem events_follow_lifecycle (ho : o.validate = .ok ()) {t : Stamp}
    (hr : Relation.ReflTransGen (LifeStep o) (World.empty t) w) (id : String) :
    ∃ p, Phase.run o.maxAttempts .start (w.events.filter (·.entry == id)) = some p ∧
      p.Matches o.maxAttempts (w.store.find? id) := by
  have hmax := Options.validate_maxAttempts ho
  -- the agreement rides along the run with the representation invariant it needs
  have inv : w.store.WellFormed o.maxAttempts ∧ w.store.Agrees o.maxAttempts w.events := by
    induction hr with
    | refl => exact ⟨Store.WellFormed.empty, Store.Agrees.empty⟩
    | tail _ hs ih => exact ⟨hs.step.wellFormed hmax ih.1, hs.agrees ih.1 ih.2⟩
  exact inv.2 id

/-- A queue with the default options whose one entry was added and taken. -/
theorem events_follow_lifecycle_taken :
    Options.default.validate = .ok () ∧
      Relation.ReflTransGen (LifeStep Options.default) (World.empty ⟨0⟩)
        (((World.empty ⟨0⟩).call Options.default (.enqueue "a" [])).call Options.default
          (.take "k")) ∧
      ∃ p, Phase.run Options.default.maxAttempts .start
          ((((World.empty ⟨0⟩).call Options.default (.enqueue "a" [])).call Options.default
            (.take "k")).events.filter (·.entry == "a")) = some p ∧
        p.Matches Options.default.maxAttempts
          ((((World.empty ⟨0⟩).call Options.default (.enqueue "a" [])).call Options.default
            (.take "k")).store.find? "a") := by
  have ho : Options.default.validate = .ok () := rfl
  have hr : Relation.ReflTransGen (LifeStep Options.default) (World.empty ⟨0⟩)
      (((World.empty ⟨0⟩).call Options.default (.enqueue "a" [])).call Options.default
        (.take "k")) :=
    .tail (.single (LifeStep.call (.enqueue "a" []) (by simp [Op.Fresh, World.empty])
      (by simp [Op.Unnamed, World.empty])))
      (LifeStep.call (.take "k") (by simp [Op.Fresh, World.tokens, World.call, World.empty,
        Op.delivery]) trivial)
  exact ⟨ho, hr, events_follow_lifecycle ho hr "a"⟩

/- An entry delivered, abandoned, delivered again and completed is done: adding it again is
not a step of its life. -/
example : Phase.run 3 .start [.enqueued "a" ⟨0⟩, .dequeued "a" 1 ⟨5⟩ ⟨0⟩,
    .abandoned "a" 1 none ⟨0⟩ ⟨0⟩, .dequeued "a" 2 ⟨5⟩ ⟨0⟩, .completed "a" ⟨1⟩,
    .enqueued "a" ⟨2⟩] = none := by
  decide

end Backplane.Queue
