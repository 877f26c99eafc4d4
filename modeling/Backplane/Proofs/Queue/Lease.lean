import Backplane.Proofs.Queue.World

/-!
# Lease exclusivity

A token owns an entry at an instant when the entry is leased under that token and the lease
has not run out (`Record.isOwnedBy`). Ownership is what renewals, completions and hand-backs
check, so the queue's safety rests on two facts: the token that owns an entry is the one its
latest delivery handed out, and a token that has lost an entry never gets it back.

Every change of the store but a delivery grants nothing (`Store.GrantsNothing`): each lease
token a stored entry holds afterwards it held before, and what a token owns afterwards it
owned before, at the same instant. A delivery grants one entry to a token never handed out
before. From these, `Step.token_source` says where every token after a step comes from, and
`lease_exclusive` follows by induction over runs.
-/

namespace Backplane.Queue

namespace Store

/-- A change from `s` to `s'` grants nothing at instant `c`: every lease token an entry of
`s'` holds the entry held in `s`, and what a token owns in `s'` at `c` it owned in `s` at
`c`. -/
def GrantsNothing (c : Stamp) (s s' : Store) : Prop :=
  ∀ id r' tok, s'.find? id = some r' → r'.leaseToken = some tok →
    ∃ r, s.find? id = some r ∧ r.leaseToken = some tok ∧
      (r'.isOwnedBy tok c = true → r.isOwnedBy tok c = true)

namespace GrantsNothing

variable {s s' s'' : Store} {o : Options} {id token : String} {r : Record} {c now : Stamp}

theorem refl : GrantsNothing c s s := fun _ r _ hr ht => ⟨r, hr, ht, fun h => h⟩

theorem trans (h₁ : GrantsNothing c s s') (h₂ : GrantsNothing c s' s'') :
    GrantsNothing c s s'' := by
  intro id r'' tok hr ht
  obtain ⟨r', hr', ht', ho'⟩ := h₂ id r'' tok hr ht
  obtain ⟨r, hr, ht, ho⟩ := h₁ id r' tok hr' ht'
  exact ⟨r, hr, ht, ho ∘ ho'⟩

theorem of_records (h : s'.records = s.records) : GrantsNothing c s s' := by
  intro id r' tok hr ht
  exact ⟨r', by simpa [find?, h] using hr, ht, fun h => h⟩

theorem modifyRecord {f : Record → Record} (hf : ∀ r, r.id = id → (f r).id = id)
    (hr : s.find? id = some r)
    (hk : ∀ tok, (f r).leaseToken = some tok →
      r.leaseToken = some tok ∧ ((f r).isOwnedBy tok c = true → r.isOwnedBy tok c = true)) :
    GrantsNothing c s (s.modifyRecord id f) := by
  intro x r' tok hx ht
  rw [find?_modifyRecord_eq hf hr] at hx
  by_cases hxi : x = id
  · simp only [hxi, if_true, Option.some.injEq] at hx
    subst hx hxi
    exact ⟨r, hr, (hk tok ht).1, (hk tok ht).2⟩
  · simp only [hxi, if_false] at hx
    exact ⟨r', hx, ht, fun h => h⟩

/-! ## Every change but a delivery -/

theorem release {reason : Option String} {timedOut : Bool} :
    GrantsNothing c s (s.release o id reason timedOut now).1 := by
  cases hr : s.find? id with
  | none => simp only [Store.release, hr]; exact refl
  | some r =>
    by_cases hm : o.maxAttempts ≤ r.attempts
    · rw [release_park hr hm]
      exact modifyRecord (fun _ h => h) hr fun tok ht => by simp [Record.deadLetter] at ht
    · rw [release_requeue hr (by omega)]
      exact modifyRecord (fun _ h => h) hr fun tok ht => by simp [Record.requeue] at ht

theorem releaseEach {ids : List String} : GrantsNothing c s (Store.releaseEach o now ids s).1 := by
  induction ids generalizing s with
  | nil => exact refl
  | cons id ids ih => rw [releaseEach_cons]; exact release.trans ih

theorem reclaimExpired : GrantsNothing c s (s.reclaimExpired o now).1 := by
  rw [reclaimExpired_eq]; exact releaseEach

theorem enqueue {p : Bytes} (hfresh : id ∉ s.records.map (·.id)) :
    GrantsNothing c s (s.enqueue id p now).1 := by
  intro x r' tok hx ht
  rw [find?_enqueue hfresh] at hx
  by_cases hxi : x = id
  · simp only [hxi, if_true, Option.some.injEq] at hx
    subst hx; simp [Record.fresh] at ht
  · simp only [hxi, if_false] at hx
    exact ⟨r', hx, ht, fun h => h⟩

/-- A renewal at `c` extends the lease of the token that owns the entry at `c`, and nothing
else. -/
theorem renew {ext : Duration} : GrantsNothing c s (s.renew id token ext c).1 := by
  rcases renew_cases s id token ext c with e | ⟨r, hr, ho, e⟩
  · rw [e]; exact refl
  · rw [e]
    refine modifyRecord (fun _ h => h) hr fun tok ht => ⟨ht, fun _ => ?_⟩
    obtain ⟨t, -, -, hto⟩ := Record.isOwnedBy_iff.1 ho
    simp only [Record.extendLease] at ht
    rw [ht] at hto
    cases hto; exact ho

theorem complete : GrantsNothing c s (s.complete id token now).1 := by
  rcases complete_cases s id token now with e | ⟨r, -, -, e⟩
  · rw [e]; exact refl
  · rw [e]
    intro x r' tok hx ht
    rw [find?_filter_id] at hx
    by_cases hxi : x = id
    · simp [hxi] at hx
    · simp only [hxi, if_false] at hx
      exact ⟨r', hx, ht, fun h => h⟩

theorem abandon {reason : Option String} :
    GrantsNothing c s (s.abandon o id token reason now).1 := by
  rcases abandon_cases s o id token reason now with e | ⟨-, -, -, e₁, -, -, -⟩
  · rw [e]; exact refl
  · exact release.trans (of_records e₁)

theorem retryDeadLetter : GrantsNothing c s (s.retryDeadLetter id now).1 := by
  rcases retryDeadLetter_cases s id now with e | ⟨r, t, hr, -, e⟩
  · rw [e]; exact refl
  · rw [e]
    refine (modifyRecord (f := (·.revive now)) (fun _ h => h) hr fun tok ht =>
      ⟨ht, fun ho => ?_⟩ : GrantsNothing c s (s.modifyRecord id (·.revive now))).trans
      (of_records rfl)
    simp [Record.isOwnedBy, Record.revive] at ho

theorem forceLeaseExpiry : GrantsNothing c s (s.forceLeaseExpiry id c).1 := by
  rcases forceLeaseExpiry_cases s id c with e | ⟨r, t, hr, -, e⟩
  · rw [e]; exact refl
  · rw [e]
    refine modifyRecord (fun _ h => h) hr fun tok ht => ⟨ht, fun ho => ?_⟩
    obtain ⟨u, hu, hlt, -⟩ := Record.isOwnedBy_iff.1 ho
    simp only [Record.extendLease, State.dequeued.injEq] at hu
    subst hu
    change c.nanos < c.nanos - 1000000000 at hlt
    omega

theorem deleteQueue : GrantsNothing c s {} := fun _ _ _ hx => by simp [find?] at hx

end GrantsNothing

variable {s : Store} {o : Options} {id token : String} {now : Stamp}

/-- A call by a token that does not own the entry is turned down and changes nothing. -/
theorem rejects_of_not_owned (hn : ∀ r, s.find? id = some r → r.isOwnedBy token now = false)
    (ext : Duration) (reason : Option String) :
    s.renew id token ext now = (s, none) ∧ s.complete id token now = (s, none) ∧
      s.abandon o id token reason now = (s, none) := by
  refine ⟨?_, ?_, ?_⟩
  · rcases renew_cases s id token ext now with e | ⟨r, hr, ho, _⟩
    · exact e
    · simp [hn r hr] at ho
  · rcases complete_cases s id token now with e | ⟨r, hr, ho, _⟩
    · exact e
    · simp [hn r hr] at ho
  · rcases abandon_cases s o id token reason now with e | ⟨r, hr, ho, _⟩
    · exact e
    · simp [hn r hr] at ho

end Store

namespace World

/-- A token owns an entry: the entry's lease carries it and has not run out. -/
def Owns (w : World) (id token : String) : Prop :=
  ∃ r, w.store.find? id = some r ∧ r.isOwnedBy token w.clock = true

/-- The token of an entry's latest delivery. -/
def latestToken (w : World) (id : String) : Option String :=
  ((w.leases.filter (·.1 == id)).getLast?).map (·.2)

/-- Whether every lease token a stored entry holds is the token of its latest delivery. -/
def TokensLatest (w : World) : Prop :=
  ∀ id r tok, w.store.find? id = some r → r.leaseToken = some tok → w.latestToken id = some tok

variable {w w' : World} {id : String}

theorem latestToken_snoc {x token : String} (h : w'.leases = w.leases ++ [(x, token)]) :
    w'.latestToken id = if id = x then some token else w.latestToken id := by
  by_cases hix : id = x
  · subst hix; simp [latestToken, h]
  · simp [latestToken, h, List.filter_append, Ne.symm hix, hix]

end World

variable {o : Options} {w w' : World} {id tok : String} {r' : Record}

theorem Op.grantsNothing_of_ne_take {op : Op} (hf : op.Fresh w)
    (hnt : ∀ token, op ≠ .take token) :
    op.delivery o w.clock w.store = none ∧
      Store.GrantsNothing w.clock w.store (op.run o w.clock w.store).1 := by
  cases op with
  | take token => exact absurd rfl (hnt token)
  | enqueue x p => exact ⟨rfl, .enqueue hf⟩
  | renew => exact ⟨rfl, .renew⟩
  | complete => exact ⟨rfl, .complete⟩
  | abandon => exact ⟨rfl, .abandon⟩
  | retryDeadLetter => exact ⟨rfl, .retryDeadLetter⟩
  | reap => exact ⟨rfl, Store.GrantsNothing.reclaimExpired.trans (.of_records rfl)⟩
  | forceLeaseExpiry => exact ⟨rfl, .forceLeaseExpiry⟩
  | deleteQueue => exact ⟨rfl, .deleteQueue⟩

/-- Where the lease token of an entry after a step comes from: either the entry held it
before, owning now only what it owned before, and its latest delivery is unchanged; or the
step has just delivered the entry under a token never handed out before. -/
theorem Step.token_source (hs : Step o w w') (hr' : w'.store.find? id = some r')
    (ht : r'.leaseToken = some tok) :
    (∃ r, w.store.find? id = some r ∧ r.leaseToken = some tok ∧
        (r'.isOwnedBy tok w'.clock = true → r.isOwnedBy tok w.clock = true) ∧
        w'.latestToken id = w.latestToken id) ∨
      (tok ∉ w.tokens ∧ w'.latestToken id = some tok) := by
  cases hs with
  | tick hle =>
    refine .inl ⟨r', hr', ht, fun ho => ?_, rfl⟩
    obtain ⟨u, hu, hlt, hto⟩ := Record.isOwnedBy_iff.1 ho
    exact Record.isOwnedBy_iff.2 ⟨u, hu, Int.lt_of_le_of_lt hle hlt, hto⟩
  | call op hf =>
    by_cases hnt : ∀ token, op ≠ .take token
    · obtain ⟨hd, hS⟩ := Op.grantsNothing_of_ne_take hf hnt
      obtain ⟨r, hr, htr, ho⟩ := hS id r' tok hr' ht
      exact .inl ⟨r, hr, htr, ho, by simp [World.latestToken, World.call, hd]⟩
    push Not at hnt
    obtain ⟨token, rfl⟩ := hnt
    have hS : Store.GrantsNothing w.clock w.store (w.store.reclaimExpired o w.clock).1 :=
      .reclaimExpired
    change ((w.store.take o token w.clock).1.find? id = some r') at hr'
    rw [Store.find?_take] at hr'
    have hd : Op.delivery o w.clock w.store (.take token) =
        ((w.store.reclaimExpired o w.clock).1.leaseFirst o token w.clock).2.map
          fun e => (e.id, token) := by
      simp [Op.delivery, Store.take_leased]
    rcases Store.leaseFirst_cases (w.store.reclaimExpired o w.clock).1 o token w.clock
      with e | ⟨x, r₀, -, hr₀, e⟩
    · rw [e] at hr' hd
      obtain ⟨r, hr, htr, ho⟩ := hS id r' tok hr' ht
      exact .inl ⟨r, hr, htr, ho, by simp [World.latestToken, World.call, hd]⟩
    · rw [e, Store.find?_lease hr₀] at hr'
      rw [e, Store.lease_of_find? hr₀] at hd
      simp only [Option.map_some] at hd
      have hl : (w.call o (.take token)).leases = w.leases ++ [(x, token)] := by
        simp [World.call, hd]
      by_cases hix : id = x
      · -- the entry just delivered, under the fresh token
        subst hix
        simp only [if_true, Option.some.injEq] at hr'
        subst hr'
        simp only [Record.startLease, Option.some.injEq] at ht
        subst ht
        exact .inr ⟨hf, by simp [World.latestToken_snoc hl]⟩
      · simp only [hix, if_false] at hr'
        obtain ⟨r, hr, htr, ho⟩ := hS id r' tok hr' ht
        exact .inl ⟨r, hr, htr, ho, by simp [World.latestToken_snoc hl, hix]⟩

theorem Step.tokensLatest (hs : Step o w w') (h : w.TokensLatest) : w'.TokensLatest := by
  intro id r' tok hr' ht
  rcases hs.token_source hr' ht with ⟨r, hr, htr, -, hl⟩ | ⟨-, hl⟩
  · rw [hl]; exact h id r tok hr htr
  · exact hl

theorem Step.not_owns (hs : Step o w w') {token : String} (hk : token ∈ w.tokens)
    (hn : ¬ w.Owns id token) : ¬ w'.Owns id token := by
  rintro ⟨r', hr', ho⟩
  obtain ⟨-, -, -, ht⟩ := Record.isOwnedBy_iff.1 ho
  rcases hs.token_source hr' ht with ⟨r, hr, -, hor, -⟩ | ⟨hnk, -⟩
  · exact hn ⟨r, hr, hor ho⟩
  · exact hnk hk

/-- Along a run, a token once handed out that does not own an entry stays handed out and
not owning. -/
theorem Step.not_owns_run (hr : Relation.ReflTransGen (Step o) w w') {token : String}
    (hk : token ∈ w.tokens) (hn : ¬ w.Owns id token) : token ∈ w'.tokens ∧ ¬ w'.Owns id token := by
  induction hr with
  | refl => exact ⟨hk, hn⟩
  | tail _ hs ih => exact ⟨hs.tokens_mono ih.1, hs.not_owns ih.1 ih.2⟩

/-- Lease exclusivity. In every reachable queue a token that owns an entry is the token of
the entry's latest delivery, so at most one token owns it. A token once handed out that does
not own an entry owns it in no later world: neither after its lease ran out, whether or not
the lease was reclaimed, nor after the entry was completed, handed back or deleted with the
queue, nor after a later delivery. A renewal, completion or hand-back by a token that does
not own the entry is turned down and leaves the store, counters included, as it was. -/
theorem lease_exclusive (hw : Reachable o w) :
    (∀ id token, w.Owns id token → w.latestToken id = some token) ∧
    (∀ w' id token, Relation.ReflTransGen (Step o) w w' → token ∈ w.tokens →
      ¬ w.Owns id token → ¬ w'.Owns id token) ∧
    (∀ id token, ¬ w.Owns id token → ∀ ext reason,
      w.store.renew id token ext w.clock = (w.store, none) ∧
      w.store.complete id token w.clock = (w.store, none) ∧
      w.store.abandon o id token reason w.clock = (w.store, none)) := by
  obtain ⟨t₀, hr⟩ := hw
  have hl : w.TokensLatest := by
    induction hr with
    | refl => intro id r tok hr; simp [World.empty, Store.find?] at hr
    | tail _ hs ih => exact hs.tokensLatest ih
  refine ⟨fun id token hown => ?_, fun w' id token hr' hk hn => (Step.not_owns_run hr' hk hn).2,
    fun id token hn => Store.rejects_of_not_owned fun r hr => ?_⟩
  · obtain ⟨r, hr, ho⟩ := hown
    obtain ⟨-, -, -, ht⟩ := Record.isOwnedBy_iff.1 ho
    exact hl id r token hr ht
  · simpa using fun ho => hn ⟨r, hr, ho⟩

/-- After one entry is enqueued and delivered under token "k", "k" is its only owner. -/
theorem lease_exclusive_delivered :
    let o := Options.default
    let w := ((World.empty ⟨0⟩).call o (.enqueue "a" [])).call o (.take "k")
    Reachable o w ∧ w.latestToken "a" = some "k" ∧ ∀ token, w.Owns "a" token → token = "k" := by
  intro o w
  have hw : Reachable o w :=
    ⟨⟨0⟩, .tail (.single (Step.call (.enqueue "a" []) (by simp [Op.Fresh, World.empty])))
      (Step.call (.take "k") (by simp [Op.Fresh, World.tokens, World.call, World.empty,
        Op.delivery]))⟩
  have hk : w.latestToken "a" = some "k" := by decide
  refine ⟨hw, hk, fun token ho => ?_⟩
  have := (lease_exclusive hw).1 "a" token ho
  rw [hk, Option.some.injEq] at this
  exact this.symm

end Backplane.Queue
