import Backplane.Proofs.Queue.World

/-!
# Conservation of entries and the balance of the counters

Every entry added to a queue since it was created or last deleted is still held, in one of its
three states, or was completed; every delivery was completed, abandoned, reclaimed after its
lease ran out, or is still leased; and an abandon that carried an error is one of the abandons.

`Store.Balanced n s` says this of a store into which `n` entries were added, beside the
distinctness of entry ids that the counting rests on. What each change does to the number of
leased entries follows from one census lemma for a store changed at one entry
(`countP_modifyRecord`); each call then keeps the balance (`Balanced.call`). `Trace` records
the calls a run made, so that `stats_conserved` can name the number of entries added.
-/

namespace Backplane.Queue

/-- Whether an entry is leased. -/
def State.isLeased : State → Bool
  | .dequeued _ => true
  | _ => false

@[simp] theorem State.isLeased_enqueued : State.enqueued.isLeased = false := rfl
@[simp] theorem State.isLeased_dequeued {t : Stamp} : (State.dequeued t).isLeased = true := rfl
@[simp] theorem State.isLeased_deadLettered {t : Stamp} : (State.deadLettered t).isLeased = false :=
  rfl

@[simp] theorem Record.extendLease_state {r : Record} {u : Stamp} :
    (r.extendLease u).state = .dequeued u := rfl
@[simp] theorem Record.revive_state {r : Record} {t : Stamp} : (r.revive t).state = .enqueued := rfl

namespace Store

variable {s : Store} {o : Options} {id token : String} {r : Record} {now : Stamp}

/-- The number of leased entries. -/
def leased (s : Store) : Nat := s.records.countP (·.state.isLeased)

/-- The ids of the entries, in the order they were created. -/
def ids (s : Store) : List String := s.records.map (·.id)

@[simp] theorem countTimeouts_records {n : Nat} : (s.countTimeouts n).records = s.records := rfl
@[simp] theorem countTimeouts_counters {n : Nat} :
    (s.countTimeouts n).counters = { s.counters with timeouts := s.counters.timeouts + n } := rfl
@[simp] theorem countDequeued_records : s.countDequeued.records = s.records := rfl
@[simp] theorem countDequeued_counters :
    s.countDequeued.counters = { s.counters with dequeued := s.counters.dequeued + 1 } := rfl

theorem length_of_ids {s' : Store} (h : s'.ids = s.ids) : s'.records.length = s.records.length := by
  simpa [ids] using congrArg List.length h

theorem stats_working (s : Store) : s.stats.working = s.leased := by
  simp only [stats, leased, List.countP_eq_length_filter]
  congr 1

/-- Every entry is in exactly one of the three states. -/
theorem stats_totalHeld (s : Store) : s.stats.totalHeld = s.records.length := by
  simp only [Stats.totalHeld, stats]
  induction s.records with
  | nil => rfl
  | cons r rs ih =>
    cases h : r.state <;> simp [h] <;> omega

/-! ## A census of a store changed at one entry -/

theorem records_split (hn : s.ids.Nodup) (hr : s.find? id = some r) :
    ∃ l₁ l₂, s.records = l₁ ++ r :: l₂ ∧ (∀ y ∈ l₁, y.id ≠ id) ∧ ∀ y ∈ l₂, y.id ≠ id := by
  obtain ⟨hmem, hid⟩ := find?_spec hr
  obtain ⟨l₁, l₂, he⟩ := List.append_of_mem hmem
  rw [ids, he, List.map_append, List.map_cons, List.nodup_append, List.nodup_cons] at hn
  obtain ⟨-, ⟨hr₂, -⟩, hdis⟩ := hn
  refine ⟨l₁, l₂, he, fun y hy hy' => ?_, fun y hy hy' => ?_⟩
  · exact hdis y.id (List.mem_map_of_mem hy) r.id (by simp) (hy'.trans hid.symm)
  · exact hr₂ (hid ▸ hy' ▸ List.mem_map_of_mem hy)

theorem countP_modifyRecord (hn : s.ids.Nodup) (hr : s.find? id = some r) {f : Record → Record}
    (p : Record → Bool) :
    (s.modifyRecord id f).records.countP p + (if p r then 1 else 0) =
      s.records.countP p + (if p (f r) then 1 else 0) := by
  obtain ⟨l₁, l₂, he, h₁, h₂⟩ := records_split hn hr
  have hid := (find?_spec hr).2
  have hfix : ∀ l : List Record, (∀ y ∈ l, y.id ≠ id) →
      l.map (fun y => if y.id == id then f y else y) = l := fun l hl => by
    conv => rhs; rw [← List.map_id l]
    exact List.map_congr_left fun y hy => by simp [hl y hy]
  simp only [modifyRecord, he, List.map_append, List.map_cons, hfix l₁ h₁, hfix l₂ h₂, hid,
    beq_self_eq_true, if_true, List.countP_append, List.countP_cons]
  omega

theorem leased_modifyRecord (hn : s.ids.Nodup) (hr : s.find? id = some r) {f : Record → Record}
    (hl : r.state.isLeased) (hl' : (f r).state.isLeased = false) :
    (s.modifyRecord id f).leased + 1 = s.leased := by
  have := countP_modifyRecord hn hr (f := f) (·.state.isLeased)
  simp only [hl, hl', if_true] at this
  exact this

theorem erase_counts (hn : s.ids.Nodup) (hr : s.find? id = some r) {t : Stamp}
    (hd : r.state = .dequeued t) :
    (s.records.filter (·.id != id)).length + 1 = s.records.length ∧
      (s.records.filter (·.id != id)).countP (·.state.isLeased) + 1 = s.leased := by
  obtain ⟨l₁, l₂, he, h₁, h₂⟩ := records_split hn hr
  have hid := (find?_spec hr).2
  have hkeep : ∀ l : List Record, (∀ y ∈ l, y.id ≠ id) → l.filter (·.id != id) = l :=
    fun l hl => List.filter_eq_self.2 fun y hy => by simp [hl y hy]
  have hf : s.records.filter (·.id != id) = l₁ ++ l₂ := by
    rw [he, List.filter_append, List.filter_cons, hkeep l₁ h₁, hkeep l₂ h₂]
    simp [hid]
  rw [hf, leased, he]
  simp only [List.length_append, List.length_cons, List.countP_append, List.countP_cons, hd,
    State.isLeased_dequeued, if_true]
  omega

/-! ## Handing back and reclaiming -/

section release

variable {reason : Option String} {timedOut : Bool}

theorem ids_release : (s.release o id reason timedOut now).1.ids = s.ids := by
  cases hr : s.find? id with
  | none => simp [release, hr]
  | some r =>
    by_cases hm : o.maxAttempts ≤ r.attempts
    · rw [release_park hr hm]; exact ids_modifyRecord fun _ h => h
    · rw [release_requeue hr (by omega)]; exact ids_modifyRecord fun _ h => h

theorem counters_release : (s.release o id reason timedOut now).1.counters = s.counters := by
  cases hr : s.find? id with
  | none => simp [release, hr]
  | some r =>
    by_cases hm : o.maxAttempts ≤ r.attempts
    · rw [release_park hr hm]; rfl
    · rw [release_requeue hr (by omega)]; rfl

theorem leased_release (hn : s.ids.Nodup) (hr : s.find? id = some r) {t : Stamp}
    (hd : r.state = .dequeued t) : (s.release o id reason timedOut now).1.leased + 1 = s.leased := by
  have hl : r.state.isLeased := by simp [hd, State.isLeased]
  by_cases hm : o.maxAttempts ≤ r.attempts
  · rw [release_park hr hm]
    exact leased_modifyRecord hn hr hl rfl
  · rw [release_requeue hr (by omega)]
    exact leased_modifyRecord hn hr hl rfl

theorem timeouts_release (hr : s.find? id = some r) :
    timeouts (s.release o id reason timedOut now).2 = if timedOut then 1 else 0 := by
  by_cases hm : o.maxAttempts ≤ r.attempts
  · rw [release_park hr hm]
    cases timedOut <;> rfl
  · rw [release_requeue hr (by omega)]
    cases timedOut <;> rfl

end release

theorem timeouts_append {evs evs' : List Event} :
    timeouts (evs ++ evs') = timeouts evs + timeouts evs' := by
  simp [timeouts, List.filter_append]

/-- Releasing distinct leased entries one after the other: each is reported once as expired,
and no longer leased. -/
theorem releaseEach_counts {ids : List String} (hn : s.ids.Nodup) (hu : ids.Nodup)
    (hd : ∀ x ∈ ids, ∃ r t, s.find? x = some r ∧ r.state = .dequeued t) :
    (releaseEach o now ids s).1.ids = s.ids ∧ (releaseEach o now ids s).1.counters = s.counters ∧
      (releaseEach o now ids s).1.leased + timeouts (releaseEach o now ids s).2 = s.leased := by
  induction ids generalizing s with
  | nil => exact ⟨rfl, rfl, by simp [releaseEach, timeouts]⟩
  | cons x xs ih =>
    obtain ⟨r, t, hr, ht⟩ := hd x (by simp)
    have hu' := List.nodup_cons.1 hu
    have hn₁ : (s.release o x (some leaseExpiredReason) true now).1.ids.Nodup := by
      rw [ids_release]; exact hn
    -- the other entries are still leased: releasing `x` touched only its own entry
    have hd₁ : ∀ y ∈ xs, ∃ r t,
        (s.release o x (some leaseExpiredReason) true now).1.find? y = some r ∧
          r.state = .dequeued t := fun y hy => by
      rw [find?_release_of_ne (by rintro rfl; exact hu'.1 hy)]
      exact hd y (by simp [hy])
    obtain ⟨hi, hc, hl⟩ := ih hn₁ hu'.2 hd₁
    rw [releaseEach_cons]
    refine ⟨hi.trans ids_release, hc.trans counters_release, ?_⟩
    rw [timeouts_append, timeouts_release hr]
    have : (s.release o x (some leaseExpiredReason) true now).1.leased + 1 = s.leased :=
      leased_release hn hr ht
    simp only [if_true] at this ⊢
    omega

/-- A reclaim reports one expired lease for every entry it takes back. -/
theorem reclaimExpired_counts (o : Options) (now : Stamp) (hn : s.ids.Nodup) :
    (s.reclaimExpired o now).1.ids = s.ids ∧ (s.reclaimExpired o now).1.counters = s.counters ∧
      (s.reclaimExpired o now).1.leased + timeouts (s.reclaimExpired o now).2 = s.leased := by
  rw [reclaimExpired_eq]
  refine releaseEach_counts hn (expiredIds_nodup hn) fun y hy => ?_
  obtain ⟨r, t, hr, ht, -⟩ := expiredIds_spec hn hy
  exact ⟨r, t, hr, ht⟩

/-! ## Leasing -/

/-- A lease of the first available entry leaves one more entry leased. -/
theorem lease_counts (o : Options) (token : String) (hn : s.ids.Nodup)
    (ha : s.firstAvailable? now = some id) :
    (s.lease o id token now).1.ids = s.ids ∧ (s.lease o id token now).1.counters = s.counters ∧
      (s.lease o id token now).1.leased = s.leased + 1 := by
  obtain ⟨-, r, hr, he, -⟩ := firstAvailable?_spec ha
  have hid := (find?_spec hr).2
  have hf : ∀ r' : Record, r'.id = id →
      (r.startLease token (now.addOrMax o.visibilityTimeout) now).id = id := fun _ _ => hid
  rw [lease_of_find? hr]
  refine ⟨ids_modifyRecord hf, rfl, ?_⟩
  have := countP_modifyRecord hn hr
    (f := fun _ => r.startLease token (now.addOrMax o.visibilityTimeout) now) (·.state.isLeased)
  simp only [he, Record.startLease, State.isLeased] at this
  exact this

theorem leaseFirst_counts (o : Options) (token : String) (now : Stamp) (hn : s.ids.Nodup) :
    (s.leaseFirst o token now).1.ids = s.ids ∧ (s.leaseFirst o token now).1.counters = s.counters ∧
      (s.leaseFirst o token now).1.leased =
        s.leased + if (s.leaseFirst o token now).2.isSome then 1 else 0 := by
  unfold leaseFirst
  split
  · rename_i id ha
    obtain ⟨hi, hc, hl⟩ := lease_counts o token hn ha
    obtain ⟨-, r, hr, -⟩ := firstAvailable?_spec ha
    refine ⟨hi, hc, ?_⟩
    rw [hl]
    simp [lease_of_find? hr]
  · exact ⟨rfl, rfl, by simp⟩

end Store

/-! ## The balance -/

/-- The counters of a store into which `n` entries were added balance its entries: those added
are held or completed, the deliveries are settled or still leased, and the abandons with an
error are among the abandons. -/
structure Store.Balanced (n : Nat) (s : Store) : Prop where
  ids_nodup : s.ids.Nodup
  held : s.records.length + s.counters.completed = n
  delivered :
    s.counters.dequeued = s.counters.completed + s.counters.abandoned + s.counters.timeouts + s.leased
  errors_le : s.counters.errors ≤ s.counters.abandoned

namespace Store.Balanced

variable {n : Nat} {s s' : Store} {o : Options} {id token : String} {r : Record} {now : Stamp}

theorem empty : Balanced 0 {} := ⟨List.nodup_nil, rfl, rfl, Nat.le_refl 0⟩

theorem of_counts (h : Balanced n s) (hi : s'.ids = s.ids) (hl : s'.leased = s.leased)
    (hc : s'.counters = s.counters) : Balanced n s' := by
  obtain ⟨hn, hh, hd, he⟩ := h
  exact ⟨hi ▸ hn, by rw [Store.length_of_ids hi, hc]; exact hh, by rw [hl, hc]; exact hd,
    by rw [hc]; exact he⟩

theorem enqueue {p : Bytes} (h : Balanced n s) (hfresh : id ∉ s.ids) :
    Balanced (n + 1) (s.enqueue id p now).1 := by
  have hl : (s.enqueue id p now).1.leased = s.leased := by
    simp [Store.enqueue, Store.leased, Record.fresh]
  obtain ⟨hn, hh, hd, he⟩ := h
  refine ⟨?_, ?_, ?_, he⟩
  · simp only [Store.ids, Store.enqueue, List.map_append, List.map_cons, List.map_nil,
      Record.fresh]
    rw [← List.concat_eq_append]; exact hn.concat hfresh
  · simp only [Store.enqueue, List.length_append, List.length_cons, List.length_nil]; omega
  · rw [hl]; exact hd

theorem take (h : Balanced n s) : Balanced n (s.take o token now).1 := by
  obtain ⟨hi₁, hc₁, hl₁⟩ := Store.reclaimExpired_counts o now h.ids_nodup
  obtain ⟨hi₂, hc₂, hl₂⟩ := Store.leaseFirst_counts o token now (hi₁ ▸ h.ids_nodup)
  have hi := hi₂.trans hi₁
  have hlen := Store.length_of_ids hi
  obtain ⟨hn, hh, hd, he⟩ := h
  unfold Store.take
  dsimp only
  generalize s.reclaimExpired o now = R at *
  generalize R.1.leaseFirst o token now = L at *
  obtain ⟨s₂, d⟩ := L
  simp only [Store.leased] at hi hc₂ hl₁ hl₂ hd hlen
  have hn₂ : s₂.ids.Nodup := hi ▸ hn
  cases d with
  | none =>
    simp only [Option.isSome_none, Bool.false_eq_true, if_false, Nat.add_zero] at hl₂
    refine ⟨hn₂, ?_, ?_, ?_⟩ <;>
      simp only [Store.countTimeouts_records, Store.countTimeouts_counters, Store.leased, hc₂,
        hc₁] <;> omega
  | some e =>
    simp only [Option.isSome_some, if_true] at hl₂
    refine ⟨hn₂, ?_, ?_, ?_⟩ <;>
      simp only [Store.countDequeued_records, Store.countDequeued_counters,
        Store.countTimeouts_records, Store.countTimeouts_counters, Store.leased, hc₂, hc₁] <;>
      omega

theorem extendLease (h : Balanced n s) (hr : s.find? id = some r) {t u : Stamp}
    (hd : r.state = .dequeued t) : Balanced n (s.modifyRecord id (·.extendLease u)) := by
  refine h.of_counts (Store.ids_modifyRecord fun _ h => h) ?_ rfl
  have := Store.countP_modifyRecord h.ids_nodup hr (f := (·.extendLease u)) (·.state.isLeased)
  simp only [hd, Record.extendLease_state, State.isLeased_dequeued, if_true] at this
  exact Nat.add_right_cancel this

theorem complete (h : Balanced n s) (hr : s.find? id = some r) {t : Stamp}
    (hd : r.state = .dequeued t) :
    Balanced n { s with records := s.records.filter (·.id != id),
                        counters := { s.counters with completed := s.counters.completed + 1 } } := by
  obtain ⟨hlen, hl⟩ := Store.erase_counts h.ids_nodup hr hd
  obtain ⟨hn, hh, hdl, he⟩ := h
  refine ⟨hn.sublist (List.filter_sublist.map _), ?_, ?_, he⟩
  · change (s.records.filter (·.id != id)).length + (s.counters.completed + 1) = n
    omega
  · change s.counters.dequeued = s.counters.completed + 1 + s.counters.abandoned +
      s.counters.timeouts + (s.records.filter (·.id != id)).countP (·.state.isLeased)
    omega

theorem abandon {reason : Option String} (h : Balanced n s) (hr : s.find? id = some r)
    {t : Stamp} (hd : r.state = .dequeued t) :
    Balanced n { (s.release o id reason false now).1 with counters :=
      { (s.release o id reason false now).1.counters with
        abandoned := (s.release o id reason false now).1.counters.abandoned + 1,
        errors := if reason.isSome then (s.release o id reason false now).1.counters.errors + 1
          else (s.release o id reason false now).1.counters.errors } } := by
  have hl : (s.release o id reason false now).1.leased + 1 = s.leased :=
    Store.leased_release h.ids_nodup hr hd
  have hi : (s.release o id reason false now).1.ids = s.ids := Store.ids_release
  have hc : (s.release o id reason false now).1.counters = s.counters := Store.counters_release
  have hlen := Store.length_of_ids hi
  generalize (s.release o id reason false now).1 = s' at *
  obtain ⟨hn, hh, hdl, he⟩ := h
  refine ⟨hi ▸ hn, ?_, ?_, ?_⟩ <;> simp only [hc]
  · omega
  · change s.counters.dequeued = s.counters.completed + (s.counters.abandoned + 1) +
      s.counters.timeouts + s'.leased
    omega
  · split <;> omega

/-- Bringing a dead letter back into line moves no delivery. -/
theorem revive (h : Balanced n s) (hr : s.find? id = some r) {t : Stamp}
    (hd : r.state = .deadLettered t) :
    Balanced n { s.modifyRecord id (·.revive now) with
      dead := s.dead.filter (· != id), ready := s.ready ++ [id],
      counters := { s.counters with enqueued := s.counters.enqueued + 1 } } := by
  have hl := Store.countP_modifyRecord h.ids_nodup hr (f := (·.revive now)) (·.state.isLeased)
  simp only [hd, Record.revive_state, State.isLeased_deadLettered, State.isLeased_enqueued,
    Bool.false_eq_true, if_false, Nat.add_zero] at hl
  have hi : (s.modifyRecord id (·.revive now)).ids = s.ids := Store.ids_modifyRecord fun _ h => h
  have hlen := Store.length_of_ids hi
  obtain ⟨hn, hh, hdl, he⟩ := h
  refine ⟨hi ▸ hn, ?_, ?_, he⟩
  · change (s.modifyRecord id (·.revive now)).records.length + s.counters.completed = n
    omega
  · change s.counters.dequeued = s.counters.completed + s.counters.abandoned +
      s.counters.timeouts + (s.modifyRecord id (·.revive now)).records.countP (·.state.isLeased)
    simp only [Store.leased] at hdl
    omega

theorem reap (h : Balanced n s) {at_ : Stamp} :
    Balanced n ((s.reclaimExpired o at_).1.countTimeouts (timeouts (s.reclaimExpired o at_).2)) := by
  obtain ⟨hi, hc, hl⟩ := Store.reclaimExpired_counts o at_ h.ids_nodup
  have hlen := Store.length_of_ids hi
  obtain ⟨hn, hh, hd, he⟩ := h
  generalize s.reclaimExpired o at_ = R at *
  have hn' : R.1.ids.Nodup := hi ▸ hn
  refine ⟨hn', ?_, ?_, ?_⟩ <;>
    simp only [Store.countTimeouts_records, Store.countTimeouts_counters, Store.leased] at * <;>
    rw [hc] at * <;> simp at * <;> omega

end Store.Balanced

/-! ## Runs -/

namespace Op

/-- The number of entries held after a call, counting from the last deletion of the queue:
one more after an enqueue, none after a deletion. -/
def tally (n : Nat) : Op → Nat
  | .enqueue .. => n + 1
  | .deleteQueue => 0
  | _ => n

/-- The entries that calls added to a queue since it was last deleted, or created. -/
def added (ops : List Op) : Nat := ops.foldl tally 0

theorem added_concat {ops : List Op} {op : Op} : added (ops ++ [op]) = tally (added ops) op := by
  simp [added]

end Op

/-- A run of a queue from an empty store, with the calls it made in order. -/
inductive Trace (o : Options) : List Op → World → Prop where
  | empty (t : Stamp) : Trace o [] (World.empty t)
  | tick {ops : List Op} {w : World} {t : Stamp} :
      Trace o ops w → w.clock ≤ t → Trace o ops { w with clock := t }
  | call {ops : List Op} {w : World} (op : Op) :
      Trace o ops w → op.Fresh w → Trace o (ops ++ [op]) (w.call o op)

variable {o : Options} {ops : List Op} {w : World}

theorem Trace.reachable (hw : Trace o ops w) : Reachable o w := by
  induction hw with
  | empty t => exact ⟨t, .refl⟩
  | tick _ hle ih =>
    obtain ⟨t, h⟩ := ih
    exact ⟨t, .tail h (.tick hle)⟩
  | call op _ hf ih =>
    obtain ⟨t, h⟩ := ih
    exact ⟨t, .tail h (.call op hf)⟩

theorem Store.Balanced.call {n : Nat} (h : w.store.Balanced n) {op : Op} (hf : op.Fresh w) :
    (w.call o op).store.Balanced (Op.tally n op) := by
  show (op.run o w.clock w.store).1.Balanced (Op.tally n op)
  cases op with
  | enqueue id p => exact h.enqueue hf
  | take token => exact h.take
  | renew id token ext =>
    rcases Store.renew_cases w.store id token ext w.clock with e | ⟨r, hr, ho, e⟩
    · simp only [Op.run, Op.tally, e]; exact h
    · obtain ⟨t, ht, -⟩ := Record.isOwnedBy_iff.1 ho
      simp only [Op.run, Op.tally, e]; exact h.extendLease hr ht
  | complete id token =>
    rcases Store.complete_cases w.store id token w.clock with e | ⟨r, hr, ho, e⟩
    · simp only [Op.run, Op.tally, e]; exact h
    · obtain ⟨t, ht, -⟩ := Record.isOwnedBy_iff.1 ho
      simp only [Op.run, Op.tally, e]; exact h.complete hr ht
  | abandon id token reason =>
    simp only [Op.run, Op.tally]
    unfold Store.abandon
    split
    · rename_i r hr
      split
      · rename_i ho
        obtain ⟨t, ht, -⟩ := Record.isOwnedBy_iff.1 ho
        exact h.abandon hr ht
      · exact h
    · exact h
  | retryDeadLetter id =>
    rcases Store.retryDeadLetter_cases w.store id w.clock with e | ⟨r, t, hr, ht, e⟩
    · simp only [Op.run, Op.tally, e]; exact h
    · simp only [Op.run, Op.tally, e]; exact h.revive hr ht
  | reap at_ => exact h.reap
  | forceLeaseExpiry id =>
    rcases Store.forceLeaseExpiry_cases w.store id w.clock with e | ⟨r, t, hr, ht, e⟩
    · simp only [Op.run, Op.tally, e]; exact h
    · simp only [Op.run, Op.tally, e]; exact h.extendLease hr ht
  | deleteQueue => exact Store.Balanced.empty

/-- Along every run the store balances the entries added since the last deletion. -/
theorem Trace.balanced (hw : Trace o ops w) : w.store.Balanced (Op.added ops) := by
  induction hw with
  | empty t => exact Store.Balanced.empty
  | tick _ _ ih => exact ih
  | call op _ hf ih => rw [Op.added_concat]; exact ih.call hf

/-- In every run of a queue, the entries held in its three states and those completed add up
to the entries added since it was created or last deleted; every delivery is completed,
abandoned, reclaimed or still leased; and the abandons with an error are among the
abandons. -/
theorem stats_conserved (hw : Trace o ops w) :
    w.store.stats.queued + w.store.stats.working + w.store.stats.deadLettered +
        w.store.stats.counters.completed = Op.added ops ∧
      w.store.stats.counters.dequeued =
        w.store.stats.counters.completed + w.store.stats.counters.abandoned +
          w.store.stats.counters.timeouts + w.store.stats.working ∧
      w.store.stats.counters.errors ≤ w.store.stats.counters.abandoned := by
  have hb := hw.balanced
  have ht := Store.stats_totalHeld w.store
  have hw' := Store.stats_working w.store
  simp only [Stats.totalHeld] at ht
  exact ⟨by rw [ht]; exact hb.held, by rw [hw']; exact hb.delivered, hb.errors_le⟩

/-- A consumer takes the only entry and hands it back because its payload does not read, as a
typed consumer does. -/
theorem stats_conserved_after_abandon :
    let o := Options.default
    let ops : List Op := [.enqueue "a" [], .take "k", .abandon "a" "k" (some "bad payload")]
    let w := (((World.empty ⟨0⟩).call o (.enqueue "a" [])).call o (.take "k")).call o
      (.abandon "a" "k" (some "bad payload"))
    Trace o ops w ∧
      (w.store.stats.queued + w.store.stats.working + w.store.stats.deadLettered +
          w.store.stats.counters.completed = Op.added ops ∧
        w.store.stats.counters.dequeued =
          w.store.stats.counters.completed + w.store.stats.counters.abandoned +
            w.store.stats.counters.timeouts + w.store.stats.working ∧
        w.store.stats.counters.errors ≤ w.store.stats.counters.abandoned) := by
  intro o ops w
  have hw : Trace o ops w :=
    .call _ (.call _ (.call _ (.empty ⟨0⟩) (by simp [Op.Fresh, World.empty]))
      (by simp [Op.Fresh, World.tokens, World.call, World.empty, Op.delivery])) trivial
  exact ⟨hw, stats_conserved hw⟩

example : (((((World.empty ⟨0⟩).call Options.default (.enqueue "a" [])).call Options.default
    (.take "k")).call Options.default (.abandon "a" "k" (some "bad payload"))).store.stats) =
      ⟨1, 0, 0, ⟨1, 1, 0, 1, 0, 1⟩⟩ := by
  decide

end Backplane.Queue
