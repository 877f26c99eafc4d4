import Mathlib.Data.List.Induction
import Backplane.Session.EventSteps
import Backplane.Proofs.Fiber.Run

/-!
# Fan-out of an event hub

The callers of a hub (registering a listener under the next id of a counter, unregistering one
by id, clearing, and emitting) each act on it in one atomic step; an emit takes its snapshot
and unregisters the one-shot listeners in the same step, and calls the snapshot afterwards. So
every interleaving of the callers is a sequence of calls (`Call`), and what an emit calls is
fixed by where its step falls in that sequence.

`exec_spec` describes the hub after any sequence of calls declaratively: it holds exactly the
listeners registered and not unregistered since (`Live`), in the order of their ids, which grow
with the registrations. The replies follow (`emit_fan_out`): an emit calls the live listeners
in registration order, a one-shot listener is called by one emit at most, and an
unregistration finds a listener exactly when it is live. `Session.eventStep_emit` says what the
emit step of a session does with the snapshot.
-/

namespace Backplane.Hub

variable {β : Type}

theorem off_found {h : Hub β} {i : Nat} :
    (h.off i).2 = true ↔ ∃ l ∈ h.listeners, l.id = i := by
  have hle := List.length_filter_le (fun l : Listener β => l.id != i) h.listeners
  simp only [off, bne_iff_ne, ne_eq]
  constructor
  · intro hne
    obtain ⟨l, hl, hp⟩ :=
      List.length_filter_lt_length_iff_exists.1 (Nat.lt_of_le_of_ne hle hne)
    exact ⟨l, hl, by simpa using hp⟩
  · rintro ⟨l, hl, rfl⟩ heq
    have := (List.length_filter_lt_length_iff_exists (p := fun x : Listener β => x.id != l.id)).2
      ⟨l, hl, by simp⟩
    omega

/-- A call on a hub: register a listener, permanent or firing once, unregister the listener of
an id, unregister all, or emit an event. -/
inductive Call (β : Type) where
  | on (once : Bool) (b : β)
  | off (id : Nat)
  | clear
  | emit

/-- What a call answers: the new listener's id, whether the listener was found, how many were
unregistered, or the listeners the emit calls, in order. -/
inductive Reply (β : Type) where
  | registered (id : Nat)
  | removed (found : Bool)
  | cleared (n : Nat)
  | invoked (calls : List (Listener β))

namespace Call

/-- Whether a call registers a listener. -/
def isOn : Call β → Bool
  | .on .. => true
  | _ => false

/-- A call on the counter of listener ids given out so far and the hub. -/
def run : Call β → Nat × Hub β → (Nat × Hub β) × Reply β
  | .on once b, s => ((s.1 + 1, s.2.add (s.1 + 1) once b), .registered (s.1 + 1))
  | .off id, s => ((s.1, (s.2.off id).1), .removed (s.2.off id).2)
  | .clear, s => ((s.1, s.2.clear.1), .cleared s.2.clear.2)
  | .emit, s => ((s.1, s.2.snapshot.1), .invoked s.2.snapshot.2)

/-- Whether a call unregisters a listener: its own unregistration, clearing the hub, or an emit
when the listener fires once. -/
def Drops : Call β → Listener β → Prop
  | .off id, l => l.id = id
  | .clear, _ => True
  | .emit, l => l.once = true
  | .on .., _ => False

variable {c : Call β} {s : Nat × Hub β} {l : Listener β}

theorem run_counter : (c.run s).1.1 = s.1 + if c.isOn then 1 else 0 := by
  cases c <;> simp [run, isOn]

theorem mem_run :
    l ∈ (c.run s).1.2.listeners ↔
      l ∈ s.2.listeners ∧ ¬ c.Drops l ∨
        ∃ once b, c = .on once b ∧ l = ⟨s.1 + 1, once, b⟩ := by
  cases c with
  | on once b => simp [run, Drops, Hub.add]
  | off id => simp [run, Drops, Hub.off]
  | clear => simp [run, Drops, Hub.clear]
  | emit => simp [run, Drops, Hub.snapshot]

theorem run_ids_le (hle : ∀ l ∈ s.2.listeners, l.id ≤ s.1) :
    ∀ l ∈ (c.run s).1.2.listeners, l.id ≤ (c.run s).1.1 := by
  intro l hl
  rw [run_counter]
  rcases mem_run.1 hl with ⟨hl, -⟩ | ⟨once, b, rfl, rfl⟩
  · have := hle l hl
    omega
  · simp [isOn]

/-- A call keeps the ids of the hub increasing: a registration appends an id past the
counter, the others only drop listeners. -/
theorem run_sorted (hle : ∀ l ∈ s.2.listeners, l.id ≤ s.1)
    (hsort : (s.2.listeners.map (·.id)).Pairwise (· < ·)) :
    ((c.run s).1.2.listeners.map (·.id)).Pairwise (· < ·) := by
  cases c with
  | on once b =>
    simp only [run, Hub.add, List.map_append, List.pairwise_append]
    refine ⟨hsort, by simp, fun x hx y hy => ?_⟩
    simp only [List.map_cons, List.map_nil, List.mem_singleton] at hy
    obtain ⟨l, hl, rfl⟩ := List.mem_map.1 hx
    have := hle l hl
    omega
  | off id => exact hsort.sublist (List.filter_sublist.map _)
  | clear => simp [run, Hub.clear]
  | emit => exact hsort.sublist (List.filter_sublist.map _)

end Call

/-- The counter and the hub after a sequence of calls on an empty hub. -/
def exec (cs : List (Call β)) : Nat × Hub β := cs.foldl (fun s c => (c.run s).1) (0, {})

/-- The listener the call at position `j` registers, if it registers one: its id is the
number of registrations up to it. -/
def registration (cs : List (Call β)) (j : Nat) : Option (Listener β) :=
  match cs[j]? with
  | some (.on once b) => some ⟨(cs.take (j + 1)).countP Call.isOn, once, b⟩
  | _ => none

/-- The listener `l`, registered by the call at position `j`, is still registered after the
first `k` calls: no call in between unregistered it. -/
structure Live (cs : List (Call β)) (j k : Nat) (l : Listener β) : Prop where
  registered : registration cs j = some l
  before : j < k
  kept : ∀ m c, j < m → m < k → cs[m]? = some c → ¬ c.Drops l

variable {cs : List (Call β)} {c : Call β} {j k : Nat} {l : Listener β}

theorem exec_append : exec (cs ++ [c]) = (c.run (exec cs)).1 := by
  simp [exec, List.foldl_append]

theorem registration_append (hj : j < cs.length) :
    registration (cs ++ [c]) j = registration cs j := by
  have ht : (cs ++ [c]).take (j + 1) = cs.take (j + 1) :=
    List.take_append_of_le_length (by omega)
  simp only [registration, ht, List.getElem?_append_left hj]

theorem registration_last :
    registration (cs ++ [c]) cs.length =
      match c with
      | .on once b => some ⟨cs.countP Call.isOn + 1, once, b⟩
      | _ => none := by
  cases c <;> simp [registration, Call.isOn, List.take_of_length_le]

theorem live_append :
    Live (cs ++ [c]) j (cs.length + 1) l ↔
      Live cs j cs.length l ∧ ¬ c.Drops l ∨
        j = cs.length ∧ registration (cs ++ [c]) j = some l := by
  have hlast : (cs ++ [c])[cs.length]? = some c := by simp
  constructor
  · rintro ⟨hreg, hj, hkept⟩
    by_cases hjn : j < cs.length
    · refine .inl ⟨⟨(registration_append hjn).symm.trans hreg, hjn, fun m d hm hmk hd => ?_⟩,
        hkept cs.length c (by omega) (by omega) hlast⟩
      exact hkept m d hm (by omega) (by rwa [List.getElem?_append_left hmk])
    · exact .inr ⟨by omega, hreg⟩
  · rintro (⟨⟨hreg, hj, hkept⟩, hd⟩ | ⟨rfl, hreg⟩)
    · refine ⟨(registration_append hj).trans hreg, by omega, fun m d hm hmk hmd => ?_⟩
      by_cases hmn : m < cs.length
      · exact hkept m d hm hmn (by rwa [List.getElem?_append_left hmn] at hmd)
      · have hm' : m = cs.length := by omega
        subst hm'
        rw [hlast, Option.some.injEq] at hmd
        exact hmd ▸ hd
    · exact ⟨hreg, by omega, fun m d hm hmk _ => by omega⟩

/-- After any calls on an empty hub the counter has given out one id per registration, and
the hub holds exactly the listeners registered and not unregistered since, in the order of
their ids. -/
theorem exec_spec (cs : List (Call β)) :
    (exec cs).1 = cs.countP Call.isOn ∧
      (∀ l ∈ (exec cs).2.listeners, l.id ≤ (exec cs).1) ∧
      ((exec cs).2.listeners.map (·.id)).Pairwise (· < ·) ∧
      ∀ l, l ∈ (exec cs).2.listeners ↔ ∃ j, Live cs j cs.length l := by
  induction cs using List.reverseRecOn with
  | nil =>
    refine ⟨rfl, by simp [exec], by simp [exec], fun l => ?_⟩
    simp only [exec, List.foldl_nil, List.not_mem_nil, false_iff, not_exists]
    exact fun j h => absurd h.before (Nat.not_lt_zero j)
  | append_singleton cs c ih =>
    obtain ⟨hn, hle, hsort, hmem⟩ := ih
    rw [exec_append]
    refine ⟨?_, Call.run_ids_le hle, Call.run_sorted hle hsort, fun l => ?_⟩
    · rw [Call.run_counter, hn]
      cases c <;> simp [Call.isOn]
    · rw [Call.mem_run, hmem, List.length_append, List.length_singleton]
      simp only [live_append]
      constructor
      · rintro (⟨⟨j, hj⟩, hd⟩ | ⟨once, b, rfl, rfl⟩)
        · exact ⟨j, .inl ⟨hj, hd⟩⟩
        · exact ⟨cs.length, .inr ⟨rfl, by simp [registration_last, hn]⟩⟩
      · rintro ⟨j, ⟨hj, hd⟩ | ⟨rfl, hreg⟩⟩
        · exact .inl ⟨⟨j, hj⟩, hd⟩
        · rw [registration_last] at hreg
          cases c with
          | on once b =>
            simp only [Option.some.injEq] at hreg
            exact .inr ⟨once, b, rfl, by rw [hn, ← hreg]⟩
          | _ => simp at hreg

/-! ## Replies -/

/-- The reply to the call at position `k` of a sequence of calls on an empty hub. -/
def reply (cs : List (Call β)) (k : Nat) : Option (Reply β) :=
  cs[k]?.map fun c => (c.run (exec (cs.take k))).2

theorem registration_take (hj : j < k) : registration (cs.take k) j = registration cs j := by
  simp only [registration, List.getElem?_take_of_lt hj, List.take_take,
    Nat.min_eq_left (Nat.succ_le_of_lt hj)]

theorem live_take : Live (cs.take k) j k l ↔ Live cs j k l := by
  constructor
  · rintro ⟨hreg, hj, hkept⟩
    refine ⟨(registration_take hj).symm.trans hreg, hj, fun m c hm hmk hc => ?_⟩
    exact hkept m c hm hmk (by rwa [List.getElem?_take_of_lt hmk])
  · rintro ⟨hreg, hj, hkept⟩
    refine ⟨(registration_take hj).trans hreg, hj, fun m c hm hmk hc => ?_⟩
    exact hkept m c hm hmk (by rwa [List.getElem?_take_of_lt hmk] at hc)

theorem mem_exec_take (hk : k ≤ cs.length) :
    l ∈ (exec (cs.take k)).2.listeners ↔ ∃ j, Live cs j k l := by
  rw [(exec_spec _).2.2.2, List.length_take_of_le hk]
  exact exists_congr fun j => live_take

theorem registration_id (h : registration cs j = some l) :
    l.id = (cs.take (j + 1)).countP Call.isOn := by
  unfold registration at h
  split at h
  · cases h
    rfl
  · cases h

theorem registration_id_lt {a b : Nat} {l' : Listener β} (hab : a < b)
    (ha : registration cs a = some l) (hb : registration cs b = some l') : l.id < l'.id := by
  rw [registration_id ha, registration_id hb]
  unfold registration at hb
  split at hb
  · rename_i once x hc
    have hsub := (List.take_sublist_take_left (l := cs) (by omega : a + 1 ≤ b)).countP_le
      (p := Call.isOn)
    rw [List.take_add_one (l := cs) (i := b), hc, List.countP_append]
    simp only [Option.toList_some, List.countP_singleton, Call.isOn, if_true]
    omega
  · cases hb

theorem registration_inj {j₁ j₂ : Nat} (h₁ : registration cs j₁ = some l)
    (h₂ : registration cs j₂ = some l) : j₁ = j₂ := by
  rcases Nat.lt_trichotomy j₁ j₂ with h | h | h
  · exact absurd (registration_id_lt h h₁ h₂) (Nat.lt_irrefl _)
  · exact h
  · exact absurd (registration_id_lt h h₂ h₁) (Nat.lt_irrefl _)

theorem reply_emit (hk : cs[k]? = some .emit) :
    reply cs k = some (.invoked (exec (cs.take k)).2.listeners) := by
  simp [reply, hk, Call.run, Hub.snapshot]

theorem reply_off {i : Nat} (hk : cs[k]? = some (.off i)) :
    reply cs k = some (.removed ((exec (cs.take k)).2.off i).2) := by
  simp [reply, hk, Call.run]

theorem not_live_succ (hk : cs[k]? = some c) (hd : c.Drops l) (j : Nat) :
    ¬ Live cs j (k + 1) l := by
  rintro ⟨hreg, hj, hkept⟩
  rcases Nat.lt_or_ge j k with h | h
  · exact hkept k c h (by omega) hk hd
  · -- the call at `k` itself registered nothing it drops
    obtain rfl : j = k := by omega
    unfold registration at hreg
    rw [hk] at hreg
    cases c with
    | on once b => simp [Call.Drops] at hd
    | _ => cases hreg

/-- A listener that fires once is called by one emit at most. -/
theorem once_called_once (ho : l.once = true) {k₁ k₂ j₁ j₂ : Nat}
    (h₁ : cs[k₁]? = some .emit) (h₂ : cs[k₂]? = some .emit)
    (hl₁ : Live cs j₁ k₁ l) (hl₂ : Live cs j₂ k₂ l) : k₁ = k₂ := by
  obtain rfl := registration_inj hl₁.registered hl₂.registered
  -- the earlier emit lies between the registration and the later one, and drops it
  rcases Nat.lt_trichotomy k₁ k₂ with h | h | h
  · exact absurd ho (hl₂.kept k₁ .emit hl₁.before h h₁)
  · exact h
  · exact absurd ho (hl₁.kept k₂ .emit hl₂.before h h₂)

/-- An emit after the first `k` calls calls exactly the listeners live at `k`, in the order
they were registered (so each of them once). -/
theorem emit_calls (hk : k ≤ cs.length) :
    (∀ l, l ∈ (exec (cs.take k)).2.listeners ↔ ∃ j, Live cs j k l) ∧
      (exec (cs.take k)).2.listeners.Pairwise
        fun l l' => ∀ j j', Live cs j k l → Live cs j' k l' → j < j' := by
  refine ⟨fun l => mem_exec_take hk, ?_⟩
  have hsort := List.pairwise_map.1 (exec_spec (cs.take k)).2.2.1
  refine hsort.imp fun {l l'} hid j j' hl hl' => ?_
  -- ids grow with registrations, so the smaller id was registered first
  rcases Nat.lt_trichotomy j j' with h | rfl | h
  · exact h
  · have he := hl'.registered
    rw [hl.registered, Option.some.injEq] at he
    subst he
    exact absurd hid (Nat.lt_irrefl _)
  · exact absurd (registration_id_lt h hl'.registered hl.registered) (Nat.lt_asymm hid)

end Backplane.Hub

namespace Backplane.Session

open Backplane.Fiber Prog Json

/-- The event step `emit` of a session calls every listener of the hub's snapshot, failing or
not, records what each heard, unregisters the one-shot listeners, and answers how many
failed. -/
theorem eventStep_emit {s : Json} {v : Int} {h h' : Host} {r : Except String Json}
    (hd : str s "do" = .ok "emit") (hv : i64Field s "value" = .ok v)
    (hr : (eventStep s).run.Run h r h') :
    r = .ok (.nat ((h.taps.listeners.map fun l => hear l.behaviour v).filter (·.2)).length) ∧
      h'.taps = h.taps.snapshot.1 ∧
      h'.heard = h.heard ++ h.taps.listeners.map fun l => (hear l.behaviour v).1 := by
  simp [eventStep, check, act, hd, hv, ExceptT.run_bind, ExceptT.run_mk] at hr
  obtain ⟨⟨_, hset⟩, rfl⟩ := hr
  simp only [Prog.set, run_put, run_done] at hset
  obtain ⟨-, rfl⟩ := hset
  simp [Hub.snapshot]

end Backplane.Session

namespace Backplane.Hub

variable {β : Type}

/-- Fan-out of an event hub. Over any sequence of calls on an empty hub (registrations of
permanent and one-shot listeners, unregistrations, clearing and emits, in whatever order the
callers interleave them): each emit calls exactly the listeners live at its moment, in the
order they were registered and each once; a one-shot listener is called by one emit at most,
and that emit unregisters it; an unregistration finds the listener exactly when it is live
and leaves none of that id. An emit step of a session calls every listener of its snapshot,
failing or not, and answers how many failed. -/
theorem emit_fan_out (cs : List (Call β)) :
    (∀ k, cs[k]? = some .emit → ∃ ls, reply cs k = some (.invoked ls) ∧
        (∀ l, l ∈ ls ↔ ∃ j, Live cs j k l) ∧
        ls.Pairwise fun l l' => ∀ j j', Live cs j k l → Live cs j' k l' → j < j') ∧
    (∀ k i, cs[k]? = some (.off i) → ∃ found, reply cs k = some (.removed found) ∧
        (found = true ↔ ∃ j l, Live cs j k l ∧ l.id = i) ∧
        ∀ j (l : Listener β), l.id = i → ¬ Live cs j (k + 1) l) ∧
    (∀ l j₁ j₂ k₁ k₂, l.once = true → cs[k₁]? = some .emit →
        cs[k₂]? = some .emit → Live cs j₁ k₁ l → Live cs j₂ k₂ l → k₁ = k₂) ∧
    (∀ l j k, l.once = true → cs[k]? = some .emit → Live cs j k l →
        ∀ j', ¬ Live cs j' (k + 1) l) ∧
    ∀ (s : Json) (v : Int) (h h' : Host) (r : Except String Json),
      Session.str s "do" = .ok "emit" → Session.i64Field s "value" = .ok v →
      (Session.eventStep s).run.Run h r h' →
      r = .ok (.nat ((h.taps.listeners.map fun l => Session.hear l.behaviour v).filter
          (·.2)).length) ∧
        h'.taps = h.taps.snapshot.1 ∧
        h'.heard = h.heard ++ h.taps.listeners.map fun l => (Session.hear l.behaviour v).1 := by
  have hlen : ∀ {k} {c : Call β}, cs[k]? = some c → k ≤ cs.length :=
    fun hk => Nat.le_of_lt (List.getElem?_eq_some_iff.1 hk).1
  refine ⟨fun k hk => ?_, fun k i hk => ?_,
    fun l j₁ j₂ k₁ k₂ ho h₁ h₂ hl₁ hl₂ => ?_,
    fun l j k ho hk _ j' => not_live_succ hk ho j', fun s v h h' r hd hv hr => ?_⟩
  · exact ⟨_, reply_emit hk, emit_calls (hlen hk)⟩
  · refine ⟨_, reply_off hk, ?_, fun j l hi => not_live_succ hk hi j⟩
    rw [off_found]
    constructor
    · rintro ⟨l, hl, rfl⟩
      obtain ⟨j, hj⟩ := (mem_exec_take (hlen hk)).1 hl
      exact ⟨j, l, hj, rfl⟩
    · rintro ⟨j, l, hj, rfl⟩
      exact ⟨l, (mem_exec_take (hlen hk)).2 ⟨j, hj⟩, rfl⟩
  · exact once_called_once ho h₁ h₂ hl₁ hl₂
  · exact Session.eventStep_emit hd hv hr

/-- A one-shot listener is live up to the first emit after its registration, and gone after
it. -/
theorem emit_fan_out_once_gone :
    Live [Call.on true 7, .emit, .emit] 0 1 ⟨1, true, 7⟩ ∧
      ∀ j, ¬ Live [Call.on true 7, .emit, .emit] j 2 ⟨1, true, 7⟩ := by
  have hl : Live [Call.on true 7, .emit, .emit] 0 1 ⟨1, true, 7⟩ :=
    ⟨rfl, by omega, fun m _ hm hmk _ => by omega⟩
  exact ⟨hl, (emit_fan_out [Call.on true 7, .emit, .emit]).2.2.2.1 _ 0 1 rfl rfl hl⟩

end Backplane.Hub
