import Backplane.Proofs.Queue.Pull
import Backplane.Proofs.Queue.Dequeue
import Backplane.Proofs.Queue.Lease

/-!
# Entries that do not read

A typed dequeue (`pullTyped`) reads the payload of the entry its last pass handed out. An entry
whose payload does not read is handed back at once under the pass's token, with the reading
error as its reason, and the dequeue returns that error (`pullTyped_run_cases`). On the store
that is an attempt followed by a hand-back at the same instant, which the lease just taken
makes acceptable (`Store.take_abandon`): the entry has one more delivery counted, the
reading error as its last error, and it goes to the end of the line, or to the dead letters
after its last delivery.

On a queue served by typed dequeues (`TypedStep`) such an entry is never left leased: it
waits in line or is parked, with as many deliveries used as typed dequeues have handed it out
(`TypedStep.bounced_run`), so it is parked after exactly the last of them. Each typed dequeue
is one or two calls of the queue, so the line is served in order as before.
-/

open Backplane.Fiber Backplane.Fiber.Prog

namespace Backplane.Queue

/-- The reading error of a payload as a value of shape `item`; none when it reads. -/
def unreadReason (item : Json.Shape) (p : Bytes) : Option String :=
  match Wire.decode item ⟨p.toArray⟩ with
  | .ok _ => none
  | .error err => some err.message

/-! ## A typed dequeue on a host -/

section Host

open Host

variable {w : Duration} {g h' : Host} {item : Json.Shape}

theorem run_wakeConsumers_store {u : Unit} (hr : wakeConsumers.Run g u h') :
    h'.queue.store = g.queue.store := by
  simp only [wakeConsumers, notifyWaiters, updateKernel, run_bind, run_get, run_onKernel] at hr
  obtain ⟨_, _, ⟨rfl, rfl⟩, -, rfl⟩ := hr
  rfl

theorem giveBack_run {id token : String} {reason : Option String} {b : Bool}
    (hr : (giveBack id token reason).Run g b h') :
    h'.queue.store = (g.queue.store.abandon g.queue.options id token reason g.instant).1 := by
  simp only [giveBack, run_bind, run_now, run_options, run_onStore] at hr
  obtain ⟨_, _, ⟨rfl, rfl⟩, _, _, ⟨rfl, rfl⟩, res, g₃, ⟨-, rfl⟩, hr⟩ := hr
  rcases res with _ | evs
  · obtain ⟨-, rfl⟩ := run_pure.1 hr
    rfl
  · -- waking the consumers and telling the listeners leave the entries alone
    dsimp only at hr
    split at hr
    · simp only [run_bind, run_pure] at hr
      obtain ⟨_, g₅, he, -, rfl⟩ := hr
      exact Host.run_emitQueueEvents he
    · simp only [run_bind, run_pure] at hr
      obtain ⟨_, g₄, hw, _, g₅, he, -, rfl⟩ := hr
      rw [Host.run_emitQueueEvents he]
      exact run_wakeConsumers_store hw

/-- The ways a typed dequeue goes: nothing came, or a pass handed out `e`; then `e` is returned
with its value when its payload reads, and otherwise handed back under its token with the
reading error as its reason, and the error is returned. -/
theorem pullTyped_run_cases {x : Except QueueError (Option (Leased × Json))}
    (hr : (pullTyped item w).Run g x h') :
    x = .ok none ∨
    ∃ e dl g₁ g₂, (pullTurn w dl).Run g₁ (some (some e)) g₂ ∧
      ((∃ v, Wire.decode item ⟨e.payload.toArray⟩ = .ok v ∧ x = .ok (some (e, v)) ∧ h' = g₂) ∨
       ∃ err, Wire.decode item ⟨e.payload.toArray⟩ = .error err ∧
         x = .error (.serialization err) ∧
         ∃ b, (giveBack e.id e.token (some err.message)).Run g₂ b h') := by
  unfold pullTyped at hr
  rw [run_bind] at hr
  obtain ⟨y, g₂, hy, hr⟩ := hr
  rcases y with _ | e
  · exact .inl (run_pure.1 hr).1
  obtain ⟨dl, g₁, hp⟩ := pull_run_leased hy
  refine .inr ⟨e, dl, g₁, g₂, hp, ?_⟩
  dsimp only at hr
  split at hr
  · rename_i v hv
    obtain ⟨rfl, rfl⟩ := run_pure.1 hr
    exact .inl ⟨v, hv, rfl, rfl⟩
  · rename_i err herr
    simp only [run_bind, run_pure] at hr
    obtain ⟨b, _, hb, rfl, rfl⟩ := hr
    exact .inr ⟨err, herr, rfl, b, hb⟩

/-- What a typed dequeue leaves of the entries: nothing, or the lease of its last pass, and for
an entry that does not read, its hand-back with the reading error. -/
theorem pullTyped_run_store {x : Except QueueError (Option (Leased × Json))}
    (hr : (pullTyped item w).Run g x h') :
    x = .ok none ∨
    ∃ (e : Leased) (g₁ : Host), (g₁.queue.store.take g₁.queue.options e.token g₁.instant).2.2 = some e ∧
      (unreadReason item e.payload = none → ∃ v, x = .ok (some (e, v)) ∧
        h'.queue.store = (g₁.queue.store.take g₁.queue.options e.token g₁.instant).1) ∧
      ∀ m, unreadReason item e.payload = some m →
        (∃ err, x = .error (.serialization err) ∧ err.message = m) ∧
        h'.queue.store = ((g₁.queue.store.take g₁.queue.options e.token g₁.instant).1.abandon
          g₁.queue.options e.id e.token (some m) g₁.instant).1 := by
  rcases pullTyped_run_cases hr with hn | ⟨e, dl, g₁, g₂, hp, hcases⟩
  · exact .inl hn
  obtain ⟨htake, hs, hi, ho⟩ := pullTurn_run_leased hp
  refine .inr ⟨e, g₁, htake, fun hread => ?_, fun m hm => ?_⟩
  · rcases hcases with ⟨v, -, rfl, rfl⟩ | ⟨err, herr, -, -⟩
    · exact ⟨v, rfl, hs⟩
    · simp [unreadReason, herr] at hread
  · rcases hcases with ⟨v, hv, -, -⟩ | ⟨err, herr, rfl, b, hb⟩
    · simp [unreadReason, hv] at hm
    · have hmsg : err.message = m := by simpa [unreadReason, herr] using hm
      subst hmsg
      refine ⟨⟨err, rfl, rfl⟩, ?_⟩
      rw [giveBack_run hb, hs, hi, ho]

end Host

/-! ## An attempt and a hand-back at once -/

namespace Store

variable {s : Store} {o : Options} {id tok : String} {now : Stamp} {r : Record}
  {reason : Option String}

theorem release_counters {timedOut : Bool} :
    (s.release o id reason timedOut now).1.counters = s.counters := by
  cases hr : s.find? id with
  | none => simp [release, hr]
  | some r =>
    by_cases hm : o.maxAttempts ≤ r.attempts
    · rw [release_park hr hm]; rfl
    · rw [release_requeue hr (by omega)]; rfl

theorem abandon_of_owned (reason : Option String) (hf : s.find? id = some r)
    (ho : r.isOwnedBy tok now = true) :
    (s.abandon o id tok reason now).2.isSome = true ∧
      (s.abandon o id tok reason now).1.find? id = some (released o now reason r) ∧
      (s.abandon o id tok reason now).1.ready =
        s.ready ++ (if r.attempts < o.maxAttempts then [id] else []) ∧
      (s.abandon o id tok reason now).1.dead =
        s.dead ++ (if r.attempts < o.maxAttempts then [] else [id]) ∧
      (s.abandon o id tok reason now).1.counters =
        { s.counters with
          abandoned := s.counters.abandoned + 1,
          errors := if reason.isSome then s.counters.errors + 1 else s.counters.errors } := by
  have habandon : s.abandon o id tok reason now =
      ({ (s.release o id reason false now).1 with
         counters :=
          { (s.release o id reason false now).1.counters with
            abandoned := (s.release o id reason false now).1.counters.abandoned + 1,
            errors := if reason.isSome then (s.release o id reason false now).1.counters.errors + 1
              else (s.release o id reason false now).1.counters.errors } },
        some (s.release o id reason false now).2) := by
    simp [abandon, hf, ho]
  rw [habandon]
  refine ⟨rfl, ?_, release_ready hf, release_dead hf, ?_⟩
  · exact (find?_release hf : (s.release o id reason false now).1.find? id = _)
  · simp only [release_counters]

theorem take_leased_entry {e : Leased} (ht : (s.take o tok now).2.2 = some e) :
    ∃ r₀, (s.reclaimExpired o now).1.find? e.id = some r₀ ∧ e.payload = r₀.payload ∧
      e.token = tok ∧
      (s.take o tok now).1.find? e.id =
        some (r₀.startLease tok (now.addOrMax o.visibilityTimeout) now) := by
  have ht' := ht
  rw [take_leased] at ht'
  rcases leaseFirst_cases (s.reclaimExpired o now).1 o tok now with hn | ⟨id, r₀, -, hr₀, hlf⟩
  · rw [hn] at ht'
    cases ht'
  rw [hlf, lease_of_find? hr₀] at ht'
  cases ht'
  refine ⟨r₀, hr₀, rfl, rfl, ?_⟩
  rw [find?_take, hlf, find?_lease hr₀, if_pos rfl]

/-- A hand-back with a reason, requeue or park alike, keeps the payload and the deliveries,
drops the lease token and makes the reason the last error. -/
theorem released_keeps (o : Options) (now : Stamp) (m : String) (r : Record) :
    (released o now (some m) r).payload = r.payload ∧
      (released o now (some m) r).attempts = r.attempts ∧
      (released o now (some m) r).lastError = some m ∧
      (released o now (some m) r).leaseToken = none := by
  unfold released
  split <;> exact ⟨rfl, rfl, rfl, rfl⟩

theorem take_owns {e : Leased} (ht : (s.take o tok now).2.2 = some e)
    (hvis : 0 < o.visibilityTimeout.nanos) (hnow : now < Stamp.maxUtc) :
    ∃ r₀, (s.reclaimExpired o now).1.find? e.id = some r₀ ∧ e.payload = r₀.payload ∧
      (s.take o tok now).1.find? e.id =
        some (r₀.startLease tok (now.addOrMax o.visibilityTimeout) now) ∧
      (r₀.startLease tok (now.addOrMax o.visibilityTimeout) now).isOwnedBy e.token now = true := by
  obtain ⟨r₀, hr₀, hpay, -, hr⟩ := take_leased_entry ht
  obtain ⟨-, -, hl, r, hr', hs, hk⟩ := take_leased_record ht
  rw [hr] at hr'
  cases hr'
  refine ⟨r₀, hr₀, hpay, hr, (Record.isOwnedBy_of_leased hs hk).2 ?_⟩
  rw [hl]
  exact Stamp.lt_addOrMax hvis hnow

/-- An attempt that leased `e`, then its hand-back with reason `m` at the same instant: accepted
and counted as an abandon; the entry, one delivery more and `m` its last error, goes back in line
after its retry delay or, after its last delivery, to the dead letters. -/
theorem take_abandon {e : Leased} {m : String} (ht : (s.take o tok now).2.2 = some e)
    (hvis : 0 < o.visibilityTimeout.nanos) (hnow : now < Stamp.maxUtc) :
    ∃ r₀ r, (s.reclaimExpired o now).1.find? e.id = some r₀ ∧
      ((s.take o tok now).1.abandon o e.id tok (some m) now).2.isSome = true ∧
      ((s.take o tok now).1.abandon o e.id tok (some m) now).1.find? e.id = some r ∧
      r.payload = r₀.payload ∧ r.attempts = r₀.attempts + 1 ∧ r.lastError = some m ∧
      r.leaseToken = none ∧
      ((s.take o tok now).1.abandon o e.id tok (some m) now).1.counters =
        { (s.take o tok now).1.counters with
          abandoned := (s.take o tok now).1.counters.abandoned + 1,
          errors := (s.take o tok now).1.counters.errors + 1 } ∧
      (r.attempts < o.maxAttempts ∧ r.state = .enqueued ∧
          r.availableAt = now.addOrMax (o.retryDelayFor r.attempts) ∧
          ((s.take o tok now).1.abandon o e.id tok (some m) now).1.ready =
            (s.take o tok now).1.ready ++ [e.id] ∨
        o.maxAttempts ≤ r.attempts ∧ r.state = .deadLettered now ∧
          ((s.take o tok now).1.abandon o e.id tok (some m) now).1.dead =
            (s.take o tok now).1.dead ++ [e.id]) := by
  obtain ⟨r₀, hr₀, -, hr₁, ho⟩ := take_owns ht hvis hnow
  have htok : e.token = tok := (take_leased_record ht).1
  rw [htok] at ho
  obtain ⟨hacc, hfind, hready, hdead, hcount⟩ := abandon_of_owned (o := o) (some m) hr₁ ho
  obtain ⟨hp, ha, hl, hk⟩ := released_keeps o now m (r₀.startLease tok (now.addOrMax
    o.visibilityTimeout) now)
  refine ⟨r₀, _, hr₀, hacc, hfind, hp, ha, hl, hk, by rw [hcount]; simp, ?_⟩
  · -- the hand-back parks the entry exactly when its last delivery is used
    by_cases hm : o.maxAttempts ≤ (r₀.startLease tok (now.addOrMax o.visibilityTimeout) now).attempts
    · refine .inr ⟨by simp only [released, if_pos hm, Record.deadLetter]; exact hm,
        by simp [released, hm, Record.deadLetter], ?_⟩
      rw [hdead, if_neg (by omega)]
    · refine .inl ⟨by simp only [released, if_neg hm, Record.requeue]; omega, by simp [released, hm,
        Record.requeue], by simp [released, hm, Record.requeue], ?_⟩
      rw [hready, if_pos (by omega)]

end Store

/-! ## An entry that holds no lease -/

namespace Store

variable {s : Store} {o : Options} {x id tok : String} {now : Stamp} {r : Record}
  {reason : Option String}

theorem reclaimExpired_find?_of_idle (now : Stamp) (hw : s.WellFormed o.maxAttempts)
    (hf : s.find? x = some r) (hidle : ∀ t, r.state ≠ .dequeued t) :
    (s.reclaimExpired o now).1.find? x = some r := by
  have hne : r.leaseExpired now = false := by
    cases he : r.leaseExpired now
    · rfl
    · obtain ⟨t, ht, -⟩ := Record.leaseExpired_iff.1 he
      exact absurd ht (hidle t)
  rw [(reclaimExpired_reclaims hw.ids_nodup).find? x, hf]
  simp [hne]

theorem abandon_find?_of_ne (hne : x ≠ id) :
    (s.abandon o id tok reason now).1.find? x = s.find? x := by
  rcases abandon_cases s o id tok reason now with e | ⟨-, -, -, e₁, -, -, -⟩
  · rw [e]
  · simp only [find?, e₁]
    exact find?_release_of_ne hne

theorem not_owned_of_idle (hidle : ∀ t, r.state ≠ .dequeued t) :
    r.isOwnedBy tok now = false := by
  cases ho : r.isOwnedBy tok now
  · rfl
  · obtain ⟨t, ht, -⟩ := Record.isOwnedBy_iff.1 ho
    exact absurd ht (hidle t)

theorem take_find?_of_idle (hw : s.WellFormed o.maxAttempts) (hf : s.find? x = some r)
    (hidle : ∀ t, r.state ≠ .dequeued t) (hx : ∀ e, (s.take o tok now).2.2 = some e → e.id ≠ x) :
    (s.take o tok now).1.find? x = some r := by
  have hrec := reclaimExpired_find?_of_idle now hw hf hidle
  rw [find?_take]
  rcases leaseFirst_cases (s.reclaimExpired o now).1 o tok now with hn | ⟨id, q, -, hq, hlf⟩
  · rw [hn]
    exact hrec
  · -- the entry handed out is the one leased, and it is not `x`
    have hl : (s.take o tok now).2.2 = ((s.reclaimExpired o now).1.lease o id tok now).2 := by
      rw [take_leased, hlf]
    rw [lease_of_find? hq] at hl
    rw [hlf, find?_lease hq, if_neg fun hxid => hx _ hl hxid.symm]
    exact hrec

end Store

/-! ## A queue served by typed dequeues -/

namespace World

/-- A typed dequeue on a queue: an attempt under a new token, and, when it leased an entry
whose payload does not read (`unread` gives the reading error), the hand-back of that entry
under the token at the same instant, with the error as its reason. -/
def takeTyped (o : Options) (unread : Bytes → Option String) (token : String) (w : World) :
    World :=
  match (w.store.take o token w.clock).2.2 with
  | some e =>
    match unread e.payload with
    | some m => (w.call o (.take token)).call o (.abandon e.id token (some m))
    | none => w.call o (.take token)
  | none => w.call o (.take token)

/-- The number of times entry `x` has been handed out. -/
def deliveries (x : String) (w : World) : Nat := w.leases.countP (·.1 == x)

variable {o : Options} {unread : Bytes → Option String} {token x : String} {w : World}

theorem takeTyped_cases (o : Options) (unread : Bytes → Option String) (token : String)
    (w : World) :
    (w.takeTyped o unread token = w.call o (.take token) ∧
      ∀ e, (w.store.take o token w.clock).2.2 = some e → unread e.payload = none) ∨
    ∃ e m, (w.store.take o token w.clock).2.2 = some e ∧ unread e.payload = some m ∧
      w.takeTyped o unread token = (w.call o (.take token)).call o (.abandon e.id token (some m)) := by
  unfold takeTyped
  split
  · rename_i e he
    split
    · rename_i m hm
      exact .inr ⟨e, m, he, hm, rfl⟩
    · rename_i hm
      exact .inl ⟨rfl, fun e' he' => by rw [he] at he'; cases he'; exact hm⟩
  · rename_i he
    exact .inl ⟨rfl, fun e' he' => by rw [he] at he'; cases he'⟩

@[simp] theorem takeTyped_clock : (w.takeTyped o unread token).clock = w.clock := by
  rcases takeTyped_cases o unread token w with ⟨he, -⟩ | ⟨e, m, -, -, he⟩ <;> rw [he] <;> rfl

theorem deliveries_call_of_ne_take {op : Op} (hf : op.Fresh w)
    (hn : ∀ token, op ≠ .take token) : (w.call o op).deliveries x = w.deliveries x := by
  have hd := (Op.grantsNothing_of_ne_take (o := o) hf hn).1
  simp [deliveries, call, hd]

theorem deliveries_call_take :
    (w.call o (.take token)).deliveries x = w.deliveries x +
      ((w.store.take o token w.clock).2.2.map fun e => (e.id, token)).toList.countP
        (·.1 == x) := by
  simp [deliveries, call, Op.delivery, List.countP_append]

end World

/-- A step of a queue whose consumers take entries by typed dequeues, keeping the line in
time: the clock moves forward, a call other than an attempt that `keep` allows is made, or a
typed dequeue. -/
inductive TypedStep (o : Options) (unread : Bytes → Option String) (keep : Op → Prop) :
    World → World → Prop where
  | tick {w : World} {t : Stamp} (h : w.clock ≤ t) : TypedStep o unread keep w { w with clock := t }
  | call {w : World} (op : Op) (h : op.Fresh w) (ht : op.Timely w) (hk : keep op)
      (hn : ∀ token, op ≠ .take token) : TypedStep o unread keep w (w.call o op)
  | take {w : World} (token : String) (h : token ∉ w.tokens) :
      TypedStep o unread keep w (w.takeTyped o unread token)

namespace TypedStep

variable {o : Options} {unread : Bytes → Option String} {keep : Op → Prop} {w w' : World}

/-- A typed dequeue is an attempt, then maybe a hand-back: one or two calls of the queue. -/
theorem timely (hs : TypedStep o unread keep w w') : Relation.ReflTransGen (TimelyStep o) w w' := by
  cases hs with
  | tick h => exact .single (.tick h)
  | call op h ht => exact .single (.call op h ht)
  | take token h =>
    have h₁ : TimelyStep o w (w.call o (.take token)) := .call (.take token) h trivial
    rcases World.takeTyped_cases o unread token w with ⟨he, -⟩ | ⟨e, m, -, -, he⟩
    · rw [he]
      exact .single h₁
    · rw [he]
      exact .tail (.single h₁) (.call (.abandon e.id token (some m)) trivial trivial)

theorem timely_run (hr : Relation.ReflTransGen (TypedStep o unread keep) w w') :
    Relation.ReflTransGen (TimelyStep o) w w' :=
  Relation.reflTransGen_closed (fun _ _ hs => hs.timely) _ _ hr

theorem clock_le (hs : TypedStep o unread keep w w') : w.clock ≤ w'.clock := by
  cases hs with
  | tick h => exact h
  | call => exact Int.le_refl _
  | take => simp only [World.takeTyped_clock]; exact Int.le_refl _

theorem wellFormed (hs : TypedStep o unread keep w w') (hmax : 0 < o.maxAttempts)
    (hw : w.store.WellFormed o.maxAttempts) : w'.store.WellFormed o.maxAttempts := by
  have hr := hs.timely
  clear hs
  induction hr with
  | refl => exact hw
  | tail _ hst ih => exact hst.step.wellFormed hmax ih

end TypedStep

/-! ## An entry that does not read, on a queue served by typed dequeues -/

section Bounce

variable {o : Options} {unread : Bytes → Option String} {w w' : World} {x : String}
  {r : Record} {p : Bytes} {m : String} {n : Nat}

theorem Op.find?_call_of_idle {op : Op} (hw : w.store.WellFormed o.maxAttempts)
    (hf : w.store.find? x = some r) (hidle : ∀ t, r.state ≠ .dequeued t) (hfr : op.Fresh w)
    (ht : op.Timely w) (hn : ∀ token, op ≠ .take token) (hrd : op ≠ .retryDeadLetter x) :
    (w.call o op).store.find? x = some r := by
  -- a call that changes the entry `id` needs `id`'s lease, which `x` does not hold
  have hne_of_owned : ∀ {id token : String} {q : Record}, w.store.find? id = some q →
      q.isOwnedBy token w.clock = true → x ≠ id := by
    rintro id token q hq ho rfl
    rw [hf] at hq
    cases hq
    rw [Store.not_owned_of_idle hidle] at ho
    cases ho
  show (op.run o w.clock w.store).1.find? x = some r
  cases op with
  | enqueue id pl =>
    have hne : x ≠ id := by
      rintro rfl
      exact hfr ((Store.find?_spec hf).2 ▸ List.mem_map_of_mem (Store.find?_spec hf).1)
    simp only [Op.run]
    rw [Store.find?_enqueue hfr, if_neg hne, hf]
  | take token => exact absurd rfl (hn token)
  | renew id token ext =>
    simp only [Op.run]
    rcases Store.renew_cases w.store id token ext w.clock with e | ⟨q, hq, ho, e⟩
    · rw [e]; exact hf
    · rw [e, Store.find?_modifyRecord_of_ne (f := (·.extendLease (w.clock.addOrMax ext)))
        (hne_of_owned hq ho) fun _ h => h]
      exact hf
  | complete id token =>
    simp only [Op.run]
    rcases Store.complete_cases w.store id token w.clock with e | ⟨q, hq, ho, e⟩
    · rw [e]; exact hf
    · rw [e, Store.find?_filter_id, if_neg (hne_of_owned hq ho)]; exact hf
  | abandon id token reason =>
    simp only [Op.run]
    rcases Store.abandon_cases w.store o id token reason w.clock with e | ⟨q, hq, ho, -⟩
    · rw [e]; exact hf
    · rw [Store.abandon_find?_of_ne (hne_of_owned hq ho)]; exact hf
  | retryDeadLetter id =>
    have hne : x ≠ id := fun h => hrd (h ▸ rfl)
    simp only [Op.run]
    rcases Store.retryDeadLetter_cases w.store id w.clock with e | ⟨q, t, -, -, e⟩
    · rw [e]; exact hf
    · rw [e]
      show (w.store.modifyRecord id (·.revive w.clock)).find? x = some r
      rw [Store.find?_modifyRecord_of_ne (f := (·.revive w.clock)) hne fun _ h => h]
      exact hf
  | reap at_ => exact Store.reclaimExpired_find?_of_idle at_ hw hf hidle
  | forceLeaseExpiry id =>
    simp only [Op.run]
    rcases Store.forceLeaseExpiry_cases w.store id w.clock with e | ⟨q, t, hq, hqt, e⟩
    · rw [e]; exact hf
    · have hne : x ≠ id := by
        rintro rfl
        rw [hf] at hq
        cases hq
        exact hidle t hqt
      rw [e, Store.find?_modifyRecord_of_ne (f := (·.extendLease ⟨w.clock.nanos - 1000000000⟩))
        hne fun _ h => h]
      exact hf
  | deleteQueue => exact ht.elim

/-- An entry with payload `p`, whose reading error is `m`, as typed dequeues leave it after
handing it out `n` times: holding no lease, with `n` deliveries used, and with `m` as its last
error once it was handed out. -/
structure Record.Bounced (p : Bytes) (m : String) (n : Nat) (r : Record) : Prop where
  payload : r.payload = p
  attempts : r.attempts = n
  idle : ∀ t, r.state ≠ .dequeued t
  lastError : 0 < n → r.lastError = some m

/-- A typed dequeue hands out the entry that does not read and hands it back with its reading
error, using one delivery, or it leaves that entry as it is. -/
theorem Record.Bounced.takeTyped {token : String} (hw : w.store.WellFormed o.maxAttempts)
    (hvis : 0 < o.visibilityTimeout.nanos) (hnow : w.clock < Stamp.maxUtc)
    (hm : unread p = some m) (hf : w.store.find? x = some r) (hb : r.Bounced p m n) :
    ∃ d r', (w.takeTyped o unread token).deliveries x = w.deliveries x + d ∧
      (w.takeTyped o unread token).store.find? x = some r' ∧ r'.Bounced p m (n + d) := by
  have hrec := Store.reclaimExpired_find?_of_idle (o := o) w.clock hw hf hb.idle
  have hpay : ∀ e, (w.store.take o token w.clock).2.2 = some e → e.id = x → e.payload = p := by
    intro e he hex
    obtain ⟨r₀, hr₀, hpay, -⟩ := Store.take_leased_entry he
    rw [hex, hrec] at hr₀
    cases hr₀
    rw [hpay, hb.payload]
  have hcount : ∀ e, (w.store.take o token w.clock).2.2 = some e → e.id ≠ x →
      (w.call o (.take token)).deliveries x = w.deliveries x := by
    intro e he hex
    rw [World.deliveries_call_take, he]
    simp [hex]
  rcases World.takeTyped_cases o unread token w with ⟨he, hread⟩ | ⟨e, m', ht, hm', he⟩
  · -- nothing that does not read was handed out, so not `x`
    have hx : ∀ e, (w.store.take o token w.clock).2.2 = some e → e.id ≠ x := by
      intro e he' hex
      have hnone := hread e he'
      rw [hpay e he' hex, hm] at hnone
      cases hnone
    refine ⟨0, r, ?_, ?_, hb⟩
    · rw [he]
      cases hl : (w.store.take o token w.clock).2.2 with
      | none =>
        rw [World.deliveries_call_take, hl]
        rfl
      | some e => exact hcount e hl (hx e hl)
    · rw [he]
      exact Store.take_find?_of_idle hw hf hb.idle hx
  · rw [he]
    have hab : ∀ w₁ : World, (w₁.call o (.abandon e.id token (some m'))).deliveries x =
        w₁.deliveries x := fun w₁ => World.deliveries_call_of_ne_take trivial (by simp)
    by_cases hex : e.id = x
    · -- `x` itself: handed out, then handed back with its reading error
      have hmm : m' = m := by
        rw [hpay e ht hex, hm] at hm'
        exact (Option.some.inj hm').symm
      subst hmm hex
      obtain ⟨r₀, r₁, hr₀, -, hr₁, hp₁, ha₁, hl₁, -, -, hst⟩ :=
        Store.take_abandon (m := m') ht hvis hnow
      rw [hrec] at hr₀
      cases hr₀
      refine ⟨1, r₁, ?_, hr₁, ⟨hp₁.trans hb.payload, by rw [ha₁, hb.attempts], ?_, fun _ => hl₁⟩⟩
      · rw [hab, World.deliveries_call_take, ht]
        simp
      · intro t hdq
        rcases hst with ⟨-, he', -⟩ | ⟨-, he', -⟩ <;> rw [he'] at hdq <;> cases hdq
    · -- another entry: `x` is untouched by the attempt and by the hand-back
      refine ⟨0, r, by rw [hab, hcount e ht hex, Nat.add_zero], ?_, hb⟩
      show ((w.store.take o token w.clock).1.abandon o e.id token (some m') w.clock).1.find? x =
        some r
      rw [Store.abandon_find?_of_ne (Ne.symm hex)]
      exact Store.take_find?_of_idle hw hf hb.idle fun e' he' => by
        rw [ht] at he'
        cases he'
        exact hex

/-- One step of a queue served by typed dequeues that does not revive `x`: an entry `x` that
does not read stays as `Record.Bounced` says, with as many more deliveries used as the step
handed it out. -/
theorem TypedStep.bounced (hs : TypedStep o unread (· ≠ .retryDeadLetter x) w w')
    (hw : w.store.WellFormed o.maxAttempts) (hvis : 0 < o.visibilityTimeout.nanos)
    (hnow : w'.clock < Stamp.maxUtc) (hm : unread p = some m) (hf : w.store.find? x = some r)
    (hb : r.Bounced p m n) :
    ∃ d r', w'.deliveries x = w.deliveries x + d ∧ w'.store.find? x = some r' ∧
      r'.Bounced p m (n + d) := by
  cases hs with
  | tick h => exact ⟨0, r, rfl, hf, hb⟩
  | call op hfr ht hk hn =>
    exact ⟨0, r, World.deliveries_call_of_ne_take hfr hn,
      Op.find?_call_of_idle hw hf hb.idle hfr ht hn hk, hb⟩
  | take token h =>
    simp only [World.takeTyped_clock] at hnow
    exact Record.Bounced.takeTyped hw hvis hnow hm hf hb

/-- Every run of a queue served by typed dequeues that does not revive `x` keeps its store
well formed and an entry `x` that does not read as `Record.Bounced` says, counting the
deliveries made along the run. The induction is on the run, the clock only moving forward. -/
theorem TypedStep.bounced_run {w₀ : World} (hmax : 0 < o.maxAttempts)
    (hvis : 0 < o.visibilityTimeout.nanos) (hm : unread p = some m)
    (hr : Relation.ReflTransGen (TypedStep o unread (· ≠ .retryDeadLetter x)) w₀ w)
    (hw : w₀.store.WellFormed o.maxAttempts) (hnow : w.clock < Stamp.maxUtc)
    (hf : w₀.store.find? x = some r) (hb : r.Bounced p m n) :
    w.store.WellFormed o.maxAttempts ∧ ∃ d r', w.deliveries x = w₀.deliveries x + d ∧
      w.store.find? x = some r' ∧ r'.Bounced p m (n + d) := by
  induction hr with
  | refl => exact ⟨hw, 0, r, rfl, hf, hb⟩
  | tail _ hs ih =>
    obtain ⟨hw₁, d₁, r₁, hd₁, hf₁, hb₁⟩ := ih (Int.lt_of_le_of_lt hs.clock_le hnow)
    obtain ⟨d₂, r₂, hd₂, hf₂, hb₂⟩ := hs.bounced hw₁ hvis hnow hm hf₁ hb₁
    refine ⟨hs.wellFormed hmax hw₁, d₁ + d₂, r₂, by rw [hd₂, hd₁, Nat.add_assoc], hf₂, ?_⟩
    rw [← Nat.add_assoc]
    exact hb₂

end Bounce

/-! ## The line -/

theorem Options.validate_visibility {o : Options} (h : o.validate = .ok ()) :
    0 < o.visibilityTimeout.nanos := by
  unfold Options.validate at h
  split at h
  · cases h
  · split at h
    · cases h
    · rename_i hz
      simp only [Duration.isZero, beq_iff_eq] at hz
      omega

/-- With no retry delay, every run of a queue served by typed dequeues from an empty queue
serves the line in order from each of its points on, entries that do not read included. -/
theorem TypedStep.lineOrder_run {o : Options} {unread : Bytes → Option String}
    {keep : Op → Prop} {t : Stamp} {w w' : World} (hz : o.retryDelay = .zero)
    (hmax : 0 < o.maxAttempts)
    (h₀ : Relation.ReflTransGen (TypedStep o unread keep) (World.empty t) w)
    (h₁ : Relation.ReflTransGen (TypedStep o unread keep) w w') : World.LineOrder w w' := by
  obtain ⟨hw, hv, -⟩ := TimelyStep.line_run hz hmax (TypedStep.timely_run h₀)
    Store.WellFormed.empty fun x hx => by simp [World.empty] at hx
  exact (TimelyStep.line_run hz hmax (TypedStep.timely_run h₁) hw hv).2.2

/-- Entries that do not read cannot block the line. A typed dequeue that leases an entry whose
payload does not read returns the reading error, and leaves the entries exactly as the attempt
followed at its instant by the hand-back of the entry under the attempt's token, with the
error's text as reason. Under valid options that hand-back is accepted: the entry has one more
delivery counted and the error as its last error, one more abandon and one more error are
counted, and the entry goes to the end of the line or, after its last delivery, to the dead
letters. So on a queue served by typed dequeues that does not revive it, an entry that waited
in line and does not read is never left leased: after `n` deliveries it has used `n`, waits in
line while `n` is below the limit and is parked once `n` reaches it, with the error as its last
error. With no retry delay the line is served in order all along. -/
theorem unreadable_payloads_do_not_block {o : Options} (ho : o.validate = .ok ())
    (item : Json.Shape) (wait : Duration) :
    (∀ (g h' : Host) (x : Except QueueError (Option (Leased × Json))),
      (pullTyped item wait).Run g x h' →
      x = .ok none ∨
      ∃ (e : Leased) (g₁ : Host),
        (g₁.queue.store.take g₁.queue.options e.token g₁.instant).2.2 = some e ∧
        (unreadReason item e.payload = none → ∃ v, x = .ok (some (e, v)) ∧
          h'.queue.store = (g₁.queue.store.take g₁.queue.options e.token g₁.instant).1) ∧
        ∀ m, unreadReason item e.payload = some m →
          (∃ err, x = .error (.serialization err) ∧ err.message = m) ∧
          h'.queue.store = ((g₁.queue.store.take g₁.queue.options e.token g₁.instant).1.abandon
            g₁.queue.options e.id e.token (some m) g₁.instant).1) ∧
    (∀ (s : Store) (tok : String) (now : Stamp) (e : Leased) (m : String),
      (s.take o tok now).2.2 = some e → now < Stamp.maxUtc →
      ∃ r₀ r, (s.reclaimExpired o now).1.find? e.id = some r₀ ∧
        ((s.take o tok now).1.abandon o e.id tok (some m) now).2.isSome = true ∧
        ((s.take o tok now).1.abandon o e.id tok (some m) now).1.find? e.id = some r ∧
        r.payload = r₀.payload ∧ r.attempts = r₀.attempts + 1 ∧ r.lastError = some m ∧
        r.leaseToken = none ∧
        ((s.take o tok now).1.abandon o e.id tok (some m) now).1.counters =
          { (s.take o tok now).1.counters with
            abandoned := (s.take o tok now).1.counters.abandoned + 1,
            errors := (s.take o tok now).1.counters.errors + 1 } ∧
        (r.attempts < o.maxAttempts ∧ r.state = .enqueued ∧
            r.availableAt = now.addOrMax (o.retryDelayFor r.attempts) ∧
            ((s.take o tok now).1.abandon o e.id tok (some m) now).1.ready =
              (s.take o tok now).1.ready ++ [e.id] ∨
          o.maxAttempts ≤ r.attempts ∧ r.state = .deadLettered now ∧
            ((s.take o tok now).1.abandon o e.id tok (some m) now).1.dead =
              (s.take o tok now).1.dead ++ [e.id])) ∧
    (∀ (x : String) (p : Bytes) (m : String) (r₀ : Record) (w₀ w : World),
      unreadReason item p = some m → w₀.store.WellFormed o.maxAttempts →
      w₀.store.find? x = some r₀ → r₀.payload = p → r₀.state = .enqueued → r₀.attempts = 0 →
      Relation.ReflTransGen (TypedStep o (unreadReason item) (· ≠ .retryDeadLetter x)) w₀ w →
      w.clock < Stamp.maxUtc →
      ∃ n r, w.deliveries x = w₀.deliveries x + n ∧ w.store.find? x = some r ∧
        r.attempts = n ∧ (0 < n → r.lastError = some m) ∧
        (n < o.maxAttempts ∧ r.state = .enqueued ∨
          n = o.maxAttempts ∧ ∃ t, r.state = .deadLettered t)) ∧
    (o.retryDelay = .zero → ∀ (keep : Op → Prop) (t : Stamp) (w w' : World),
      Relation.ReflTransGen (TypedStep o (unreadReason item) keep) (World.empty t) w →
      Relation.ReflTransGen (TypedStep o (unreadReason item) keep) w w' →
      World.LineOrder w w') := by
  have hmax := Options.validate_maxAttempts ho
  have hvis := Options.validate_visibility ho
  refine ⟨fun g h' x hr => pullTyped_run_store hr,
    fun s tok now e m ht hnow => Store.take_abandon ht hvis hnow, ?_,
    fun hz keep t w w' h₀ h₁ => TypedStep.lineOrder_run hz hmax h₀ h₁⟩
  intro x p m r₀ w₀ w hm hw hf hp hs ha hr hnow
  have hidle : ∀ t, r₀.state ≠ .dequeued t := by
    intro t h
    rw [hs] at h
    cases h
  have hb : r₀.Bounced p m 0 := ⟨hp, ha, hidle, fun h => absurd h (Nat.lt_irrefl 0)⟩
  obtain ⟨hw', n, r, hd, hf', hb'⟩ := TypedStep.bounced_run hmax hvis hm hr hw hnow hf hb
  rw [Nat.zero_add] at hb'
  refine ⟨n, r, hd, hf', hb'.attempts, hb'.lastError, ?_⟩
  -- a well-formed store parks an entry exactly after its last delivery
  have hsound := hw'.sound x r hf'
  unfold Record.Sound at hsound
  rw [← hb'.attempts]
  cases hst : r.state with
  | enqueued =>
    rw [hst] at hsound
    exact .inl ⟨hsound.2, rfl⟩
  | dequeued t => exact absurd hst (hb'.idle t)
  | deadLettered t =>
    rw [hst] at hsound
    exact .inr ⟨hsound.2, t, rfl⟩

/-- The options of a queue that gives each entry one delivery. -/
def singleDelivery : Options := { Options.named "mail" with maxAttempts := 1 }

/-- The payload `{not json`, which does not read. -/
def notJson : Bytes := [123, 110, 111, 116, 32, 106, 115, 111, 110]

/-- On a queue that gives each entry one delivery, an entry `{not json` handed out once by a
typed dequeue is parked, with the reading error as its last error. -/
theorem unreadable_payloads_do_not_block_once :
    singleDelivery.validate = .ok () ∧ ∃ m, unreadReason .any notJson = some m ∧
      ∃ r, (((World.empty ⟨0⟩).call singleDelivery (.enqueue "x" notJson)).takeTyped
          singleDelivery (unreadReason .any) "k").store.find? "x" = some r ∧
        r.lastError = some m ∧ ∃ t, r.state = .deadLettered t := by
  have ho : singleDelivery.validate = .ok () := by decide
  have hsome : (unreadReason .any notJson).isSome = true := by decide +kernel
  obtain ⟨m, hm⟩ := Option.isSome_iff_exists.1 hsome
  refine ⟨ho, m, hm, ?_⟩
  let w₀ := (World.empty ⟨0⟩).call singleDelivery (.enqueue "x" notJson)
  have hw₀ : w₀.store.WellFormed singleDelivery.maxAttempts :=
    (Step.call (o := singleDelivery) (w := World.empty ⟨0⟩) (.enqueue "x" notJson)
      (by unfold Op.Fresh; decide)).wellFormed (by decide) Store.WellFormed.empty
  have hstep : TypedStep singleDelivery (unreadReason .any) (· ≠ .retryDeadLetter "x") w₀
      (w₀.takeTyped singleDelivery (unreadReason .any) "k") :=
    .take "k" (by decide)
  have hdel : (w₀.takeTyped singleDelivery (unreadReason .any) "k").deliveries "x" = 1 := by
    decide +kernel
  obtain ⟨n, r, hd, hf, -, hl, hpark⟩ := (unreadable_payloads_do_not_block ho .any Duration.zero).2.2.1
    "x" notJson m (Record.fresh "x" notJson ⟨0⟩) w₀ _ hm hw₀ (by decide) rfl rfl rfl (.single hstep)
    (by decide)
  have hn : n = 1 := by
    have h0 : w₀.deliveries "x" = 0 := by decide
    omega
  subst hn
  rcases hpark with ⟨hlt, -⟩ | ⟨-, t, ht⟩
  · exact absurd hlt (Nat.lt_irrefl 1)
  · exact ⟨r, hf, hl Nat.one_pos, t, ht⟩

end Backplane.Queue
