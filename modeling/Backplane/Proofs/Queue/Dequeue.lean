import Backplane.Proofs.Jobs.Settlement
import Backplane.Proofs.Queue.WellFormed

/-!
# Choosing the entry to deliver

What one attempt of a consumer does (`Store.take`, and `attempt` on a host): it first reclaims
every lease run out at its instant (`Store.Reclaims`), handing each entry back to the end of
the line, visible from the end of its retry delay, or to the dead letters after its last
delivery; then it leases the first entry of the line whose time has come, past the hidden
entries before it (`Store.LeasesFirst`).

With no retry delay, every entry the calls put in line is due at once, so in a run whose
reaps reclaim at instants the clock has reached the whole line stays due (`Store.DueBy`):
each call appends to the line (`Store.Appends`) and each delivery takes its head. The line is
then served in order (`World.LineOrder`, `TimelyStep.line_run`). A reap at a later instant
breaks this: it puts an entry back hidden until that instant, and entries added after it are
handed out first.
-/

namespace Backplane.Queue

theorem addOrMax_zero_le (t : Stamp) : t.addOrMax .zero ≤ t := by
  show (t.addOrMax Duration.zero).nanos ≤ t.nanos
  dsimp only [Stamp.addOrMax, Stamp.addDuration?]
  split
  · simp [Duration.zero]
  · rename_i h
    simp only [Duration.zero] at h
    simp only [Option.getD_none]
    omega

namespace Store

variable {s : Store} {o : Options} {id x token : String} {r : Record} {now : Stamp}

/-- Whether an entry, as the store holds it, has a delivery left. -/
def hasAttemptLeft (o : Options) (s : Store) (id : String) : Bool :=
  (s.find? id).any (·.attempts < o.maxAttempts)

/-- The record a hand-back at `now` with a reason leaves of a leased entry: parked after its
last delivery, else back in line from the end of its retry delay. -/
def released (o : Options) (now : Stamp) (reason : Option String) (r : Record) : Record :=
  if o.maxAttempts ≤ r.attempts then r.deadLetter now reason
  else r.requeue (now.addOrMax (o.retryDelayFor r.attempts)) reason

/-! ## Reclaiming -/

section release

variable {timedOut : Bool}

theorem find?_release (hr : s.find? id = some r) {reason : Option String} :
    (s.release o id reason timedOut now).1.find? id = some (released o now reason r) := by
  by_cases hm : o.maxAttempts ≤ r.attempts
  · rw [release_park hr hm, released, if_pos hm]
    exact (find?_modifyRecord_eq (f := (·.deadLetter now _)) (fun _ h => h) hr).trans (if_pos rfl)
  · rw [release_requeue hr (by omega), released, if_neg hm]
    exact (find?_modifyRecord_eq (f := (·.requeue _ _)) (fun _ h => h) hr).trans (if_pos rfl)

theorem release_ready (hr : s.find? id = some r) {reason : Option String} :
    (s.release o id reason timedOut now).1.ready =
      s.ready ++ (if r.attempts < o.maxAttempts then [id] else []) := by
  by_cases hm : o.maxAttempts ≤ r.attempts
  · rw [release_park hr hm]; simp [modifyRecord, Nat.not_lt.2 hm]
  · rw [release_requeue hr (by omega)]; simp [Nat.lt_of_not_le hm]

theorem release_dead (hr : s.find? id = some r) {reason : Option String} :
    (s.release o id reason timedOut now).1.dead =
      s.dead ++ (if r.attempts < o.maxAttempts then [] else [id]) := by
  by_cases hm : o.maxAttempts ≤ r.attempts
  · rw [release_park hr hm]; simp [Nat.not_lt.2 hm]
  · rw [release_requeue hr (by omega)]; simp [modifyRecord, Nat.lt_of_not_le hm]

end release

theorem hasAttemptLeft_release (hne : x ≠ id) {reason : Option String} {timedOut : Bool} :
    hasAttemptLeft o (s.release o id reason timedOut now).1 x = hasAttemptLeft o s x := by
  simp only [hasAttemptLeft, find?_release_of_ne hne]

section releaseEach

variable {ids : List String}

/-- Releasing a list of distinct entries changes each of them as a hand-back for a lease run
out does, and nothing else. -/
theorem find?_releaseEach (hn : ids.Nodup) :
    (releaseEach o now ids s).1.find? x =
      if x ∈ ids then (s.find? x).map (released o now (some leaseExpiredReason))
      else s.find? x := by
  induction ids generalizing s with
  | nil => simp [releaseEach]
  | cons id ids ih =>
    have hn' := List.nodup_cons.1 hn
    rw [releaseEach_cons, ih hn'.2]
    by_cases hx : x = id
    · subst hx
      cases hr : s.find? x with
      | none => simp [release, hr, hn'.1]
      | some r => simp [find?_release hr, hn'.1]
    · simp [find?_release_of_ne hx, hx]

/-- Releasing a list of distinct stored entries appends those with a delivery left to the
line and the others to the dead letters, each in the list's order. -/
theorem releaseEach_lines (hn : ids.Nodup) (hd : ∀ id ∈ ids, ∃ r, s.find? id = some r) :
    (releaseEach o now ids s).1.ready = s.ready ++ ids.filter (hasAttemptLeft o s) ∧
      (releaseEach o now ids s).1.dead = s.dead ++ ids.filter fun y => !hasAttemptLeft o s y := by
  induction ids generalizing s with
  | nil => simp [releaseEach]
  | cons id ids ih =>
    have hn' := List.nodup_cons.1 hn
    obtain ⟨r, hr⟩ := hd id (by simp)
    have hrest : ∀ y ∈ ids,
        hasAttemptLeft o (s.release o id (some leaseExpiredReason) true now).1 y =
          hasAttemptLeft o s y := fun y hy =>
      hasAttemptLeft_release fun (e : y = id) => hn'.1 (e ▸ hy)
    have hd' : ∀ y ∈ ids,
        ∃ q, (s.release o id (some leaseExpiredReason) true now).1.find? y = some q :=
      fun y hy => by
        rw [find?_release_of_ne fun (e : y = id) => hn'.1 (e ▸ hy)]
        exact hd y (by simp [hy])
    rw [releaseEach_cons, (ih hn'.2 hd').1, (ih hn'.2 hd').2, release_ready hr, release_dead hr,
      List.filter_congr hrest, List.filter_congr fun y hy => congrArg (!·) (hrest y hy)]
    by_cases hm : r.attempts < o.maxAttempts <;> simp [hasAttemptLeft, hr, hm]

end releaseEach

theorem mem_expiredIds (hn : (s.records.map (·.id)).Nodup) :
    x ∈ expiredIds now s ↔ ∃ r, s.find? x = some r ∧ r.leaseExpired now = true := by
  constructor
  · intro hx
    obtain ⟨r, t, hr, ht, hle⟩ := expiredIds_spec hn hx
    exact ⟨r, hr, Record.leaseExpired_iff.2 ⟨t, ht, hle⟩⟩
  · rintro ⟨r, hr, he⟩
    obtain ⟨hmem, rfl⟩ := find?_spec hr
    exact List.mem_map_of_mem (List.mem_filter.2 ⟨hmem, he⟩)

/-- What a reclaim at `now` makes of a store `s`: each entry whose lease ran out becomes what
a hand-back for that reason leaves of it, and the others stay as they were; the entries that
ran out go, in the order they were created, to the end of the line when they have a delivery
left and to the end of the dead letters otherwise. -/
structure Reclaims (o : Options) (now : Stamp) (s s' : Store) : Prop where
  find? : ∀ x, s'.find? x =
    (s.find? x).map fun r =>
      if r.leaseExpired now then released o now (some leaseExpiredReason) r else r
  ready : s'.ready = s.ready ++ (expiredIds now s).filter (hasAttemptLeft o s)
  dead : s'.dead = s.dead ++ (expiredIds now s).filter fun x => !hasAttemptLeft o s x

theorem reclaimExpired_reclaims (hn : (s.records.map (·.id)).Nodup) :
    Reclaims o now s (s.reclaimExpired o now).1 := by
  have hnd : (expiredIds now s).Nodup := expiredIds_nodup hn
  have hd : ∀ x ∈ expiredIds now s, ∃ r, s.find? x = some r := fun x hx => by
    obtain ⟨r, hr, -⟩ := (mem_expiredIds hn).1 hx
    exact ⟨r, hr⟩
  rw [reclaimExpired_eq]
  refine ⟨fun x => ?_, (releaseEach_lines hnd hd).1, (releaseEach_lines hnd hd).2⟩
  rw [find?_releaseEach hnd]
  cases hr : s.find? x with
  | none => simp
  | some r =>
    by_cases he : r.leaseExpired now = true
    · have hx : x ∈ expiredIds now s := (mem_expiredIds hn).2 ⟨r, hr, he⟩
      simp [hx, he]
    · have hx : x ∉ expiredIds now s := fun hx => by
        obtain ⟨r', hr', he'⟩ := (mem_expiredIds hn).1 hx
        rw [hr] at hr'
        cases hr'
        exact he he'
      simp [hx, he]

/-! ## Leasing -/

/-- What leasing the first available entry at `now` under `token` makes of a store `s`: the
store `s'` and the entry handed out. When no entry of the line has come due, nothing changes.
Otherwise the first entry of the line that has come due, every entry before it still hidden,
is leased until the visibility timeout from now with one more delivery counted, and leaves
the line. -/
inductive LeasesFirst (o : Options) (token : String) (now : Stamp) (s s' : Store) :
    Option Leased → Prop where
  | none (hidden : ∀ x ∈ s.ready, ∀ q, s.find? x = some q → now < q.availableAt)
      (records : s'.records = s.records) (ready : s'.ready = s.ready) (dead : s'.dead = s.dead) :
      LeasesFirst o token now s s' none
  | some (pre post : List String) (r : Record) (line : s.ready = pre ++ r.id :: post)
      (hidden : ∀ x ∈ pre, ∀ q, s.find? x = some q → now < q.availableAt)
      (found : s.find? r.id = some r) (due : r.availableAt ≤ now)
      (leased : ∀ x, s'.find? x =
        if x = r.id then some (r.startLease token (now.addOrMax o.visibilityTimeout) now)
        else s.find? x)
      (ready : s'.ready = pre ++ post) (dead : s'.dead = s.dead) :
      LeasesFirst o token now s s'
        (some ⟨r.id, r.payload, r.attempts + 1, r.createdAt, now, token,
          now.addOrMax o.visibilityTimeout⟩)

theorem LeasesFirst.of_entries {s'' : Store} {l : Option Leased}
    (h : LeasesFirst o token now s s' l) (hr : s''.records = s'.records)
    (hq : s''.ready = s'.ready) (hd : s''.dead = s'.dead) : LeasesFirst o token now s s'' l := by
  have hf : ∀ x, s''.find? x = s'.find? x := fun x => by simp [find?, hr]
  cases h with
  | none hidden records ready dead =>
    exact .none hidden (hr.trans records) (hq.trans ready) (hd.trans dead)
  | some pre post r line hidden found due leased ready dead =>
    exact .some pre post r line hidden found due (fun x => (hf x).trans (leased x))
      (hq.trans ready) (hd.trans dead)

theorem WellFormed.hidden_of_not_available {max : Nat} (hw : s.WellFormed max)
    (hx : x ∈ s.ready) (hp : ((s.find? x).any (·.isAvailable now)) = false) :
    ∀ q, s.find? x = some q → now < q.availableAt := by
  intro q hq
  obtain ⟨q', hq', he⟩ := (hw.mem_ready x).1 hx
  rw [hq] at hq'
  cases hq'
  have hna : q.isAvailable now = false := by simpa [hq] using hp
  by_contra hle
  have : q.isAvailable now = true := Record.isAvailable_iff.2 ⟨he, Int.not_lt.1 hle⟩
  simp_all

theorem leaseFirst_leasesFirst (hw : s.WellFormed o.maxAttempts) :
    LeasesFirst o token now s (s.leaseFirst o token now).1 (s.leaseFirst o token now).2 := by
  unfold leaseFirst
  cases ha : s.firstAvailable? now with
  | none =>
    refine .none (fun x hx => hw.hidden_of_not_available hx ?_) rfl rfl rfl
    simpa using List.find?_eq_none.1 ha x hx
  | some id =>
    obtain ⟨hp, pre, post, hline, hpre⟩ := List.find?_eq_some_iff_append.1 ha
    obtain ⟨r, hr, hav⟩ := (Option.any_eq_true _ _).1 hp
    obtain ⟨he, hdue⟩ := Record.isAvailable_iff.1 hav
    obtain ⟨-, rfl⟩ := find?_spec hr
    have hnot : r.id ∉ pre := fun hm => by simpa [hp] using hpre r.id hm
    show LeasesFirst o token now s (s.lease o r.id token now).1 (s.lease o r.id token now).2
    rw [lease_of_find? hr]
    refine .some pre post r hline (fun x hx => hw.hidden_of_not_available (by simp [hline, hx]) ?_)
      hr hdue (fun x => find?_modifyRecord_eq (fun _ _ => rfl) hr) ?_ rfl
    · simpa using hpre x hx
    · simp [hline, List.erase_append_right _ hnot]

/-! ## One pass of a consumer -/

/-- One attempt of a consumer to take an entry at `now`: it reclaims every lease run out, and
then leases the first entry of the line whose time has come. -/
theorem take_passes (hw : s.WellFormed o.maxAttempts) (token : String) (now : Stamp) :
    Reclaims o now s (s.reclaimExpired o now).1 ∧
      LeasesFirst o token now (s.reclaimExpired o now).1 (s.take o token now).1
        (s.take o token now).2.2 := by
  refine ⟨reclaimExpired_reclaims hw.ids_nodup, ?_⟩
  obtain ⟨hr, hq, hd⟩ := take_entries s o token now
  rw [take_leased]
  exact (leaseFirst_leasesFirst hw.reclaimExpired).of_entries hr hq hd

/-! ## The line in time -/

theorem released_availableAt_le (hz : o.retryDelay = .zero) (hm : r.attempts < o.maxAttempts)
    {reason : Option String} : (released o now reason r).availableAt ≤ now := by
  have hd : o.retryDelayFor r.attempts = .zero := by
    simp [Options.retryDelayFor, hz, Duration.isZero, Duration.zero]
  simp only [released, if_neg (Nat.not_le.2 hm), Record.requeue, hd]
  exact addOrMax_zero_le now

/-- Every entry of the line has come due by `c`. -/
def DueBy (c : Stamp) (s : Store) : Prop :=
  ∀ x ∈ s.ready, ∀ r, s.find? x = some r → r.availableAt ≤ c

/-- `s'` keeps the line of `s`, each entry of it as it was, and appends entries due by `c`. -/
def Appends (c : Stamp) (s s' : Store) : Prop :=
  ∃ added, s'.ready = s.ready ++ added ∧ (∀ x ∈ s.ready, s'.find? x = s.find? x) ∧
    ∀ x ∈ added, ∀ r, s'.find? x = some r → r.availableAt ≤ c

variable {s' : Store} {c : Stamp} {max : Nat}

theorem DueBy.mono {c' : Stamp} (h : s.DueBy c) (hc : c ≤ c') : s.DueBy c' :=
  fun x hx r hr => Int.le_trans (h x hx r hr) hc

theorem DueBy.of_appends (h : s.DueBy c) (ha : Appends c s s') : s'.DueBy c := by
  obtain ⟨added, hq, hf, hn⟩ := ha
  intro x hx r hr
  rw [hq, List.mem_append] at hx
  rcases hx with hx | hx
  · rw [hf x hx] at hr
    exact h x hx r hr
  · exact hn x hx r hr

theorem Appends.of_line (hq : s'.ready = s.ready) (hf : ∀ x ∈ s.ready, s'.find? x = s.find? x) :
    Appends c s s' :=
  ⟨[], by simp [hq], hf, by simp⟩

theorem appends_self : Appends c s s :=
  .of_line rfl fun _ _ => rfl

theorem Appends.of_entries {s'' : Store} (h : Appends c s s') (hr : s''.records = s'.records)
    (hq : s''.ready = s'.ready) : Appends c s s'' := by
  have hf : ∀ x, s''.find? x = s'.find? x := fun x => by simp [find?, hr]
  obtain ⟨added, hq', hold, hnew⟩ := h
  exact ⟨added, hq.trans hq', fun x hx => (hf x).trans (hold x hx),
    fun x hx q hq => hnew x hx q ((hf x).symm.trans hq)⟩

theorem appends_modifyRecord (hw : s.WellFormed max) (hr : s.find? id = some r)
    (hs : r.state ≠ .enqueued) {f : Record → Record} (hf : ∀ r, r.id = id → (f r).id = id) :
    Appends c s (s.modifyRecord id f) := by
  have hnot := hw.not_mem_ready hr hs
  exact .of_line rfl fun x hx => find?_modifyRecord_of_ne (fun e => hnot (e ▸ hx)) hf

theorem appends_enqueue {p : Bytes} (hw : s.WellFormed max) (hfresh : id ∉ s.records.map (·.id))
    (hn : now ≤ c) : Appends c s (s.enqueue id p now).1 := by
  have hnone := find?_eq_none.2 hfresh
  refine ⟨[id], rfl, fun x hx => ?_, fun x hx q hq => ?_⟩
  · have hne : x ≠ id := by
      rintro rfl
      obtain ⟨r, hr, -⟩ := (hw.mem_ready x).1 hx
      simp [hr] at hnone
    rw [find?_enqueue hfresh, if_neg hne]
  · rw [List.mem_singleton] at hx
    subst hx
    rw [find?_enqueue hfresh, if_pos rfl, Option.some.injEq] at hq
    subst hq
    exact hn

theorem appends_release (hz : o.retryDelay = .zero) (hw : s.WellFormed o.maxAttempts)
    (hr : s.find? id = some r) {t : Stamp} (hd : r.state = .dequeued t) (hn : now ≤ c)
    {reason : Option String} {timedOut : Bool} :
    Appends c s (s.release o id reason timedOut now).1 := by
  have hnot := hw.not_mem_ready hr (by simp [hd])
  refine ⟨_, release_ready hr, fun x hx => find?_release_of_ne fun e => hnot (e ▸ hx),
    fun x hx q hq => ?_⟩
  by_cases hm : r.attempts < o.maxAttempts
  · simp only [hm, if_true, List.mem_singleton] at hx
    subst hx
    rw [find?_release hr, Option.some.injEq] at hq
    subst hq
    exact Int.le_trans (released_availableAt_le hz hm) hn
  · simp [hm] at hx

theorem appends_reclaimExpired (hz : o.retryDelay = .zero) (hw : s.WellFormed o.maxAttempts)
    (hn : now ≤ c) : Appends c s (s.reclaimExpired o now).1 := by
  have hR : Reclaims o now s (s.reclaimExpired o now).1 := reclaimExpired_reclaims hw.ids_nodup
  refine ⟨_, hR.ready, fun x hx => ?_, fun x hx q hq => ?_⟩
  · -- a waiting entry holds no lease, so the reclaim leaves it alone
    obtain ⟨r, hr, he⟩ := (hw.mem_ready x).1 hx
    have hl : r.leaseExpired now = false := by simp [Record.leaseExpired, he]
    simp [hR.find? x, hr, hl]
  · obtain ⟨hx, hl⟩ := List.mem_filter.1 hx
    obtain ⟨r, hr, he⟩ := (mem_expiredIds hw.ids_nodup).1 hx
    have hm : r.attempts < o.maxAttempts := by simpa [hasAttemptLeft, hr] using hl
    rw [hR.find? x, hr] at hq
    simp only [he, if_true, Option.map_some, Option.some.injEq] at hq
    subst hq
    exact Int.le_trans (released_availableAt_le hz hm) hn

theorem appends_renew (hw : s.WellFormed max) {ext : Duration} :
    Appends c s (s.renew id token ext now).1 := by
  rcases renew_cases s id token ext now with e | ⟨r, hr, ho, e⟩
  · rw [e]
    exact appends_self
  · obtain ⟨t, ht, -⟩ := Record.isOwnedBy_iff.1 ho
    rw [e]
    exact appends_modifyRecord hw hr (by simp [ht]) fun _ h => h

theorem appends_complete (hw : s.WellFormed max) : Appends c s (s.complete id token now).1 := by
  rcases complete_cases s id token now with e | ⟨r, hr, ho, e⟩
  · rw [e]
    exact appends_self
  · -- the entry removed is leased, so it is not in the line
    obtain ⟨t, ht, -⟩ := Record.isOwnedBy_iff.1 ho
    have hnot := hw.not_mem_ready hr (by simp [ht])
    rw [e]
    exact .of_line rfl fun x hx => by
      rw [find?_filter_id, if_neg fun (e : x = id) => hnot (e ▸ hx)]

theorem appends_abandon (hz : o.retryDelay = .zero) (hw : s.WellFormed o.maxAttempts)
    (hn : now ≤ c) {reason : Option String} :
    Appends c s (s.abandon o id token reason now).1 := by
  rcases abandon_cases s o id token reason now with e | ⟨r, hr, ho, e₁, e₂, -, -⟩
  · rw [e]
    exact appends_self
  · obtain ⟨t, ht, -⟩ := Record.isOwnedBy_iff.1 ho
    exact (appends_release hz hw hr ht hn).of_entries e₁ e₂

theorem appends_forceLeaseExpiry (hw : s.WellFormed max) :
    Appends c s (s.forceLeaseExpiry id now).1 := by
  rcases forceLeaseExpiry_cases s id now with e | ⟨r, t, hr, ht, e⟩
  · rw [e]
    exact appends_self
  · rw [e]
    exact appends_modifyRecord hw hr (by simp [ht]) fun _ h => h

theorem appends_retryDeadLetter (hw : s.WellFormed max) (hn : now ≤ c) :
    Appends c s (s.retryDeadLetter id now).1 := by
  rcases retryDeadLetter_cases s id now with e | ⟨r, t, hr, ht, e⟩
  · rw [e]
    exact appends_self
  · have hnot := hw.not_mem_ready hr (by simp [ht])
    rw [e]
    refine ⟨[id], rfl,
      fun x hx => find?_modifyRecord_of_ne (fun e => hnot (e ▸ hx)) fun _ h => h,
      fun x hx q hq => ?_⟩
    rw [List.mem_singleton] at hx
    subst hx
    have hq' := (find?_modifyRecord_eq (f := (·.revive now)) (fun _ h => h) hr).symm.trans hq
    rw [if_pos rfl, Option.some.injEq] at hq'
    subst hq'
    exact hn

/-- Leasing in a line that has all come due hands out its head, if there is one. -/
theorem LeasesFirst.due {token : String} {l : Option Leased} (hw : s.WellFormed max)
    (hv : s.DueBy now) (h : LeasesFirst o token now s s' l) :
    s'.DueBy now ∧ l.map (·.id) = s.ready.head? ∧ s'.ready = s.ready.tail := by
  -- an entry of the line cannot be both hidden and due
  have hnot : ∀ y ∈ s.ready, ¬ ∀ q, s.find? y = .some q → now < q.availableAt := by
    intro y hy hh
    obtain ⟨q, hq, -⟩ := (hw.mem_ready y).1 hy
    exact absurd (hv y hy q hq) (Int.not_le.2 (hh q hq))
  cases h with
  | none hidden records ready dead =>
    have hnil : s.ready = [] := List.eq_nil_iff_forall_not_mem.2 fun y hy => hnot y hy (hidden y hy)
    have hf : ∀ x, s'.find? x = s.find? x := fun x => by simp [find?, records]
    refine ⟨fun x hx q hq => ?_, by simp [hnil], by simp [ready, hnil]⟩
    rw [ready] at hx
    rw [hf] at hq
    exact hv x hx q hq
  | some pre post r line hidden found due leased ready dead =>
    have hpre : pre = [] := List.eq_nil_iff_forall_not_mem.2 fun y hy =>
      hnot y (by simp [line, hy]) (hidden y hy)
    subst hpre
    have hn : r.id ∉ post := (List.nodup_cons.1 (by simpa [line] using hw.ready_nodup)).1
    refine ⟨fun x hx q hq => ?_, by simp [line], by simp [ready, line]⟩
    rw [ready, List.nil_append] at hx
    have hne : x ≠ r.id := fun e => hn (e ▸ hx)
    rw [leased, if_neg hne] at hq
    exact hv x (by simp [line, hx]) q hq

/-- A lease that ran out is delivered again by the next consumer, with no reaper: when it is
the only lease run out, it has a delivery left, there is no retry delay and nothing waits in
line, the attempt hands it out, counting one more delivery. -/
theorem take_redelivers (hz : o.retryDelay = .zero) (hw : s.WellFormed o.maxAttempts)
    (hq : s.ready = []) (hr : s.find? x = some r) (he : r.leaseExpired now = true)
    (hm : r.attempts < o.maxAttempts)
    (hone : ∀ y q, s.find? y = some q → q.leaseExpired now = true → y = x) :
    ∃ e, (s.take o token now).2.2 = some e ∧ e.id = x ∧ e.attempts = r.attempts + 1 := by
  obtain ⟨hR, hL⟩ := take_passes hw token now
  have hx : (s.reclaimExpired o now).1.find? x =
      some (released o now (some leaseExpiredReason) r) := by
    simp [hR.find? x, hr, he]
  have hline : ∀ y ∈ (s.reclaimExpired o now).1.ready, y = x := by
    intro y hy
    rw [hR.ready, hq, List.nil_append] at hy
    obtain ⟨q, hq', he'⟩ := (mem_expiredIds hw.ids_nodup).1 (List.mem_filter.1 hy).1
    exact hone y q hq' he'
  have hmem : x ∈ (s.reclaimExpired o now).1.ready := by
    rw [hR.ready, hq, List.nil_append, List.mem_filter, mem_expiredIds hw.ids_nodup]
    exact ⟨⟨r, hr, he⟩, by simp [hasAttemptLeft, hr, hm]⟩
  have hdue : (released o now (some leaseExpiredReason) r).availableAt ≤ now :=
    released_availableAt_le hz hm
  generalize hl : (s.take o token now).2.2 = l at hL
  cases hL with
  | none hidden => exact absurd hdue (Int.not_le.2 (hidden x hmem _ hx))
  | some pre post r' line hidden found =>
    have hid : r'.id = x := hline _ (by simp [line])
    rw [hid, hx, Option.some.injEq] at found
    subst found
    exact ⟨_, rfl, hid, by simp [released, Nat.not_le.2 hm, Record.requeue]⟩

end Store

/-! ## The consumer's attempt on a host -/

open Backplane.Fiber Backplane.Fiber.Prog Host

variable {h h' : Host}

@[simp] theorem run_store {s : Store} : store.Run h s h' ↔ s = h.queue.store ∧ h' = h := by
  simp [store, and_comm]

theorem attempt_run {t : Stamp} {res : List Event × Option Leased × Option Stamp}
    (hr : (attempt t).Run h res h') :
    ∃ token, res.1 = (h.queue.store.reclaimExpired h.queue.options t).2 ∧
      res.2.1 = ((h.queue.store.reclaimExpired h.queue.options t).1.leaseFirst
        h.queue.options token t).2 ∧
      h'.queue.store = ((h.queue.store.reclaimExpired h.queue.options t).1.leaseFirst
        h.queue.options token t).1.countTimeouts (timeouts res.1) := by
  unfold Store.leaseFirst
  unfold attempt at hr
  simp only [run_bind, run_options, run_onStore, run_store] at hr
  obtain ⟨_, h₀, ⟨rfl, e₀⟩, _, _, ⟨rfl, rfl⟩, _, _, ⟨rfl, rfl⟩, hr⟩ := hr
  subst h₀
  dsimp only at hr
  -- the attempt takes a token only when an entry is available
  cases ha : (h.queue.store.reclaimExpired h.queue.options t).1.firstAvailable? t with
  | some id =>
    simp only [ha, uuid, run_bind, run_pure, run_store, run_onStore, run_modifyGet] at hr
    obtain ⟨_, _, ⟨rfl, rfl⟩, _, _, ⟨rfl, rfl⟩, _, _, ⟨rfl, rfl⟩, _, _, ⟨-, rfl⟩, rfl, rfl⟩ :=
      hr
    exact ⟨Uuid.ofCounter (h.uuids + 1), rfl, rfl, rfl⟩
  | none =>
    simp only [ha, run_bind, run_pure, run_store, run_onStore] at hr
    obtain ⟨_, _, ⟨rfl, rfl⟩, _, _, ⟨rfl, rfl⟩, _, _, ⟨-, rfl⟩, rfl, rfl⟩ := hr
    exact ⟨"", rfl, rfl, rfl⟩

/-- One pass of a consumer on a host with a well-formed store: it reclaims every lease run
out at its instant, and then leases the first entry of the line whose time has come. -/
theorem attempt_passes {t : Stamp} {res : List Event × Option Leased × Option Stamp}
    (hw : h.queue.store.WellFormed h.queue.options.maxAttempts) (hr : (attempt t).Run h res h') :
    ∃ token, Store.Reclaims h.queue.options t h.queue.store
        (h.queue.store.reclaimExpired h.queue.options t).1 ∧
      Store.LeasesFirst h.queue.options token t (h.queue.store.reclaimExpired h.queue.options t).1
        h'.queue.store res.2.1 := by
  obtain ⟨token, -, hl, hs⟩ := attempt_run hr
  refine ⟨token, Store.reclaimExpired_reclaims hw.ids_nodup, ?_⟩
  rw [hl]
  exact (Store.leaseFirst_leasesFirst hw.reclaimExpired).of_entries (by rw [hs]; rfl)
    (by rw [hs]; rfl) (by rw [hs]; rfl)

/-! ## Delivery in line order -/

/-- Whether a call keeps the line in time: a reap reclaims at an instant the clock has
reached, as the consumers and the reaper do. Deleting the queue, which drops the line, is left
out. -/
def Op.Timely (w : World) : Op → Prop
  | .reap at_ => at_ ≤ w.clock
  | .deleteQueue => False
  | _ => True

/-- A step of a queue whose calls keep the line in time. -/
inductive TimelyStep (o : Options) : World → World → Prop where
  | tick {w : World} {t : Stamp} (h : w.clock ≤ t) : TimelyStep o w { w with clock := t }
  | call {w : World} (op : Op) (h : op.Fresh w) (ht : op.Timely w) :
      TimelyStep o w (w.call o op)

variable {o : Options} {w w' : World}

theorem TimelyStep.step (hs : TimelyStep o w w') : Step o w w' := by
  cases hs with
  | tick h => exact .tick h
  | call op h => exact .call op h

/-- The line is served in order from `w` to `w'`: the deliveries made in between, then the
line at `w'`, are the line at `w` followed by the entries put in line meanwhile. -/
def World.LineOrder (w w' : World) : Prop :=
  ∃ ds added, w'.leases = w.leases ++ ds ∧
    ds.map (·.1) ++ w'.store.ready = w.store.ready ++ added

theorem World.LineOrder.refl : World.LineOrder w w := ⟨[], [], by simp, by simp⟩

theorem World.LineOrder.trans {w'' : World} (h₁ : World.LineOrder w w')
    (h₂ : World.LineOrder w' w'') : World.LineOrder w w'' := by
  obtain ⟨ds₁, added₁, hl₁, hq₁⟩ := h₁
  obtain ⟨ds₂, added₂, hl₂, hq₂⟩ := h₂
  refine ⟨ds₁ ++ ds₂, added₁ ++ added₂, by rw [hl₂, hl₁, List.append_assoc], ?_⟩
  calc (ds₁ ++ ds₂).map (·.1) ++ w''.store.ready
      = ds₁.map (·.1) ++ (ds₂.map (·.1) ++ w''.store.ready) := by simp
    _ = (ds₁.map (·.1) ++ w'.store.ready) ++ added₂ := by rw [hq₂, List.append_assoc]
    _ = w.store.ready ++ (added₁ ++ added₂) := by rw [hq₁, List.append_assoc]

theorem World.lineOrder_of_appends (hl : w'.leases = w.leases) (hv : w.store.DueBy w.clock)
    (ha : Store.Appends w.clock w.store w'.store) (hc : w'.clock = w.clock) :
    w'.store.DueBy w'.clock ∧ World.LineOrder w w' := by
  refine ⟨hc ▸ hv.of_appends ha, ?_⟩
  obtain ⟨added, hq, -, -⟩ := ha
  exact ⟨[], added, by simp [hl], by simp [hq]⟩

/-- One step of a run whose line stays in time, with no retry delay: the line stays due by
the clock, and the step hands out the head of the line, if anything. -/
theorem TimelyStep.line (hz : o.retryDelay = .zero) (hs : TimelyStep o w w')
    (hw : w.store.WellFormed o.maxAttempts) (hv : w.store.DueBy w.clock) :
    w'.store.DueBy w'.clock ∧ World.LineOrder w w' := by
  have hc : w.clock ≤ w.clock := Int.le_refl _
  cases hs with
  | tick ht => exact ⟨hv.mono ht, [], [], by simp, by simp⟩
  | call op hf ht =>
    -- every call but a take hands out nothing and only appends to the line
    have hl : ∀ op : Op, (∀ token, op ≠ .take token) → (w.call o op).leases = w.leases := by
      intro op hop
      cases op <;> simp_all [World.call, Op.delivery]
    cases op with
    | enqueue id p =>
      exact World.lineOrder_of_appends (hl _ (by simp)) hv (Store.appends_enqueue hw hf hc) rfl
    | take token =>
      have hA := Store.appends_reclaimExpired hz hw hc
      obtain ⟨hv', hhead, htail⟩ := (Store.take_passes hw token w.clock).2.due
        hw.reclaimExpired (hv.of_appends hA)
      obtain ⟨added, hq, -, -⟩ := hA
      refine ⟨hv', _, added, rfl, ?_⟩
      have hmap : ∀ l : Option Leased,
          ((l.map fun e => (e.id, token)).toList.map (·.1)) = (l.map (·.id)).toList := by
        intro l; cases l <;> rfl
      have hsplit : ∀ l : List String, l.head?.toList ++ l.tail = l := by
        intro l; cases l <;> rfl
      simp only [World.call, Op.delivery, Op.run, hmap, hhead, htail, hsplit]
      exact hq
    | renew id token ext =>
      exact World.lineOrder_of_appends (hl _ (by simp)) hv (Store.appends_renew hw) rfl
    | complete id token =>
      exact World.lineOrder_of_appends (hl _ (by simp)) hv (Store.appends_complete hw) rfl
    | abandon id token reason =>
      exact World.lineOrder_of_appends (hl _ (by simp)) hv (Store.appends_abandon hz hw hc) rfl
    | retryDeadLetter id =>
      exact World.lineOrder_of_appends (hl _ (by simp)) hv (Store.appends_retryDeadLetter hw hc)
        rfl
    | reap at_ =>
      exact World.lineOrder_of_appends (hl _ (by simp)) hv
        ((Store.appends_reclaimExpired hz hw ht).of_entries rfl rfl) rfl
    | forceLeaseExpiry id =>
      exact World.lineOrder_of_appends (hl _ (by simp)) hv (Store.appends_forceLeaseExpiry hw) rfl
    | deleteQueue => exact ht.elim

/-- Runs whose line stays in time, with no retry delay, keep the store well formed and its line
due by the clock, and serve the line in order. -/
theorem TimelyStep.line_run (hz : o.retryDelay = .zero) (hmax : 0 < o.maxAttempts)
    (hr : Relation.ReflTransGen (TimelyStep o) w w') (hw : w.store.WellFormed o.maxAttempts)
    (hv : w.store.DueBy w.clock) :
    w'.store.WellFormed o.maxAttempts ∧ w'.store.DueBy w'.clock ∧ World.LineOrder w w' := by
  induction hr with
  | refl => exact ⟨hw, hv, .refl⟩
  | tail _ hs ih =>
    obtain ⟨hw₁, hv₁, ho₁⟩ := ih
    obtain ⟨hv₂, ho₂⟩ := hs.line hz hw₁ hv₁
    exact ⟨hs.step.wellFormed hmax hw₁, hv₂, ho₁.trans ho₂⟩

/-- Selection and redelivery by a consumer. One pass of a consumer on a host with a well-formed
store reclaims every lease run out at its instant, handing each back to the end of the line,
visible from the end of its retry delay, or to the dead letters after its last delivery; then
it leases the first entry of the line whose time has come, past the hidden ones before it,
with one more delivery counted and a lease until the visibility timeout from now. With no
retry delay, every run from an empty queue whose reaps reclaim at instants the clock has
reached, and which does not delete the queue, serves the line in order from each of its
points on; and a lease run out is delivered again by the next consumer, with no reaper. -/
theorem dequeue_selects_and_redelivers (ho : o.validate = .ok ()) :
    (∀ (h h' : Host) (t : Stamp) (res : List Event × Option Leased × Option Stamp),
        h.queue.options = o → h.queue.store.WellFormed o.maxAttempts →
        (attempt t).Run h res h' →
        ∃ token, Store.Reclaims o t h.queue.store (h.queue.store.reclaimExpired o t).1 ∧
          Store.LeasesFirst o token t (h.queue.store.reclaimExpired o t).1 h'.queue.store
            res.2.1) ∧
    (o.retryDelay = .zero →
      (∀ (t : Stamp) (w w' : World), Relation.ReflTransGen (TimelyStep o) (World.empty t) w →
          Relation.ReflTransGen (TimelyStep o) w w' → World.LineOrder w w') ∧
      ∀ (s : Store) (x token : String) (r : Record) (now : Stamp),
        s.WellFormed o.maxAttempts → s.ready = [] → s.find? x = some r →
        r.leaseExpired now = true → r.attempts < o.maxAttempts →
        (∀ y q, s.find? y = some q → q.leaseExpired now = true → y = x) →
        ∃ e, (s.take o token now).2.2 = some e ∧ e.id = x ∧ e.attempts = r.attempts + 1) := by
  have hmax := Options.validate_maxAttempts ho
  refine ⟨fun h h' t res hoh hw hr => ?_, fun hz => ⟨fun t w w' h₀ h₁ => ?_, ?_⟩⟩
  · subst hoh
    exact attempt_passes hw hr
  · -- the run to `w` sets up the invariants, the run on from `w` keeps the line in order
    obtain ⟨hw, hv, -⟩ := TimelyStep.line_run hz hmax h₀ Store.WellFormed.empty
      (fun x hx => by simp [World.empty] at hx)
    exact (TimelyStep.line_run hz hmax h₁ hw hv).2.2
  · intro s x token r now hw hq hr he hm hone
    exact Store.take_redelivers hz hw hq hr he hm hone

/-- Two entries added under the default options are handed out in the order they were
added. -/
theorem dequeue_selects_and_redelivers_in_order :
    let o := Options.default
    let w := ((World.empty ⟨0⟩).call o (.enqueue "a" [])).call o (.enqueue "b" [])
    o.validate = .ok () ∧ World.LineOrder w ((w.call o (.take "k1")).call o (.take "k2")) := by
  intro o w
  have ho : o.validate = .ok () := rfl
  have h₀ : Relation.ReflTransGen (TimelyStep o) (World.empty ⟨0⟩) w :=
    .tail (.single (TimelyStep.call (.enqueue "a" []) (by unfold Op.Fresh; decide) trivial))
      (TimelyStep.call (.enqueue "b" []) (by unfold Op.Fresh; decide) trivial)
  have h₁ :
      Relation.ReflTransGen (TimelyStep o) w ((w.call o (.take "k1")).call o (.take "k2")) :=
    .tail (.single (TimelyStep.call (.take "k1") (by unfold Op.Fresh; decide) trivial))
      (TimelyStep.call (.take "k2") (by unfold Op.Fresh; decide) trivial)
  exact ⟨ho, ((dequeue_selects_and_redelivers ho).2 rfl).1 ⟨0⟩ w _ h₀ h₁⟩

/-- A reap at an instant the clock has not reached puts a lease run out back in line, hidden
until that instant, so an entry added to the line after it is handed out first: with no retry
delay, the line is not served in order. -/
theorem early_reap_breaks_line_order :
    let o := Options.default
    let w := (((World.empty ⟨0⟩).call o (.enqueue "a" [])).call o (.take "k1")).call o
      (.reap ⟨400000000000⟩) |>.call o (.enqueue "b" [])
    Reachable o w ∧ Step o w (w.call o (.take "k2")) ∧ w.store.ready = ["a", "b"] ∧
      ¬ World.LineOrder w (w.call o (.take "k2")) := by
  intro o w
  have hl : (w.call o (.take "k2")).leases = w.leases ++ [("b", "k2")] := by decide
  have hq : (w.call o (.take "k2")).store.ready = ["a"] := by decide
  have hq₀ : w.store.ready = ["a", "b"] := by decide
  refine ⟨⟨⟨0⟩, ?_⟩, Step.call (.take "k2") (by unfold Op.Fresh; decide), hq₀, ?_⟩
  · exact .tail (.tail (.tail
      (.single (Step.call (.enqueue "a" []) (by unfold Op.Fresh; decide)))
      (Step.call (.take "k1") (by unfold Op.Fresh; decide)))
      (Step.call (.reap ⟨400000000000⟩) trivial))
      (Step.call (.enqueue "b" []) (by unfold Op.Fresh; decide))
  · rintro ⟨ds, added, hds, hline⟩
    rw [hl, List.append_cancel_left_eq] at hds
    subst hds
    rw [hq, hq₀] at hline
    simp at hline

end Backplane.Queue
