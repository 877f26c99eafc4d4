import Mathlib.Data.List.Nodup
import Backplane.Host
import Backplane.Proofs.Fiber.Run

/-!
# Delivery on the in-memory bus: every message once, in publish order

The calls a bus serves are subscriptions, publications, unsubscriptions, and the steps of the
subscribers' deliveries, in any interleaving (`Bus.Call`). A world records, beside the bus, the
history of calls and every message handed to a handler, with the subscriber and its handler
(`Bus.World`).

What a subscription is to receive is read off the history alone (`Call.expected`): the
messages published on its topic after its subscribe and before its first unsubscribe.

* `World.Faithful`: the invariant. Each subscriber still on the bus keeps its topic and handler
  and is open exactly until it is cancelled; the messages its handler got, followed by those
  waiting in its inbox, are exactly what it is to receive. A subscriber gone from the bus was
  cancelled and its handler got all of it.
* `World.faithful_call`: every call keeps the invariant.
* `Host.fixes_handle`: handling a message never changes the bus, whatever the handler makes of
  it.
* `delivery_exactly_once`: hence in every world the calls reach from an empty bus, each handler
  got a prefix of what its subscription is to receive, in publish order, the rest waiting in
  its inbox, and all of it once its delivery has ended; every message went to the handler of
  its own subscriber; and a topic counts as subscribers the subscriptions to it not cancelled.
-/

namespace Backplane.Bus

variable {η : Type}

/-! ## Subscribers by id -/

/-- The subscriber with id `i`. -/
def sub? (b : Bus η) (i : Nat) : Option (Subscriber η) := b.subscribers.find? (·.id == i)

variable {b : Bus η} {i j : Nat}

theorem sub?_spec {s : Subscriber η} (h : b.sub? i = some s) :
    s ∈ b.subscribers ∧ s.id = i := by
  unfold sub? at h
  exact ⟨List.mem_of_find?_eq_some h, by simpa using List.find?_some h⟩

theorem sub?_of_mem (hn : (b.subscribers.map (·.id)).Nodup) {s : Subscriber η}
    (hs : s ∈ b.subscribers) : b.sub? s.id = some s := by
  cases h : b.sub? s.id with
  | none => simpa using List.find?_eq_none.1 h s hs
  | some s' =>
    obtain ⟨hs', hid⟩ := sub?_spec h
    rw [List.inj_on_of_nodup_map hn hs' hs hid]

theorem ids_map {l : List (Subscriber η)} {f : Subscriber η → Subscriber η}
    (hf : ∀ s, (f s).id = s.id) : (l.map f).map (·.id) = l.map (·.id) := by
  rw [List.map_map]
  congr 1; funext s; exact hf s

theorem find?_map_id {l : List (Subscriber η)} {f : Subscriber η → Subscriber η}
    (hf : ∀ s, (f s).id = s.id) :
    (l.map f).find? (·.id == i) = (l.find? (·.id == i)).map f := by
  have hp : ((fun s : Subscriber η => s.id == i) ∘ f) = fun s => s.id == i := by
    funext s; simp [hf]
  rw [List.find?_map, hp]

theorem sub?_subscribe {t : String} {h : η} {sig : Nat}
    (hlt : ∀ s ∈ b.subscribers, s.id < b.nextId) :
    (b.subscribe t h sig).1.sub? i =
      if i = b.nextId then some { id := b.nextId, topic := t, handler := h, signal := sig }
      else b.sub? i := by
  unfold sub? subscribe
  simp only [List.find?_append]
  by_cases hi : i = b.nextId
  · subst hi
    have : b.subscribers.find? (·.id == b.nextId) = none :=
      List.find?_eq_none.2 fun s hs => by simpa using Nat.ne_of_lt (hlt s hs)
    simp [this]
  · cases hf : b.subscribers.find? (·.id == i) <;> simp [hi, Ne.symm hi]

theorem sub?_publish {t : String} {p : List UInt8} :
    (b.publish t p).1.sub? i = (b.sub? i).map fun s =>
      if s.isOpen && s.topic == t then { s with inbox := s.inbox ++ [⟨t, p⟩] } else s := by
  unfold sub? publish
  exact find?_map_id fun s => by split <;> rfl

theorem sub?_unsubscribe :
    (b.unsubscribe j).1.sub? i = (b.sub? i).map fun s =>
      if s.id = j then { s with isOpen := false } else s := by
  unfold unsubscribe
  split
  · unfold sub?
    simp only
    rw [find?_map_id fun s => by split <;> rfl]
    congr 1; funext s; simp
  · rename_i hn
    cases h : b.sub? i with
    | none => rfl
    | some s =>
      obtain ⟨hs, -⟩ := sub?_spec h
      by_cases hj : s.id = j
      · have hc : s.isOpen = false := by
          simpa [hj] using List.find?_eq_none.1 hn s hs
        cases s
        simp only at hj hc
        simp [hj, hc]
      · simp [hj]

/-- What a step of a delivery does: nothing for a subscriber not on the bus or open with an
empty inbox; hand the next message to its handler; or, for a closed one whose inbox is empty,
take it off the bus. -/
theorem take_cases (b : Bus η) (j : Nat) :
    b.sub? j = none ∧ b.take j = (b, .closed) ∨
    (∃ s m rest, b.sub? j = some s ∧ s.inbox = m :: rest ∧
      b.take j = ({ b with subscribers := b.subscribers.map fun t =>
        if t.id == j then { t with inbox := rest } else t }, .message m s.handler)) ∨
    (∃ s, b.sub? j = some s ∧ s.inbox = [] ∧ s.isOpen = true ∧ b.take j = (b, .idle)) ∨
    (∃ s, b.sub? j = some s ∧ s.inbox = [] ∧ s.isOpen = false ∧
      b.take j = ({ b with subscribers := b.subscribers.filter (·.id != j) }, .closed)) := by
  unfold take
  cases h : b.sub? j with
  | none =>
    refine .inl ⟨rfl, ?_⟩
    simp only [sub?] at h
    simp [h]
  | some s =>
    have hf : b.subscribers.find? (·.id == j) = some s := h
    rcases hi : s.inbox with _ | ⟨m, rest⟩
    · cases ho : s.isOpen
      · exact .inr (.inr (.inr ⟨s, rfl, hi, ho, by simp [hf, hi, ho]⟩))
      · exact .inr (.inr (.inl ⟨s, rfl, hi, ho, by simp [hf, hi, ho]⟩))
    · exact .inr (.inl ⟨s, m, rest, rfl, hi, by simp [hf, hi]⟩)

theorem sub?_take_message {rest : List Message} :
    ({ b with subscribers := b.subscribers.map fun t =>
        if t.id == j then { t with inbox := rest } else t } : Bus η).sub? i =
      (b.sub? i).map fun s => if s.id = j then { s with inbox := rest } else s := by
  unfold sub?
  simp only
  rw [find?_map_id fun s => by split <;> rfl]
  congr 1; funext s; simp

theorem sub?_take_closed :
    ({ b with subscribers := b.subscribers.filter (·.id != j) } : Bus η).sub? i =
      if i = j then none else b.sub? i := by
  unfold sub?
  simp only [List.find?_filter]
  by_cases hi : i = j
  · subst hi
    simp only [if_true, List.find?_eq_none]
    intro s _
    by_cases h : s.id = i <;> simp [h]
  · simp only [hi, if_false]
    congr 1; funext s
    by_cases h : s.id = i
    · simp [h, hi]
    · simp [h]

theorem unsubscribe_nextId : (b.unsubscribe j).1.nextId = b.nextId := by
  unfold unsubscribe; split <;> rfl

theorem unsubscribe_ids :
    (b.unsubscribe j).1.subscribers.map (·.id) = b.subscribers.map (·.id) := by
  unfold unsubscribe
  split
  · simp only [List.map_map]
    congr 1; funext s; simp only [Function.comp]; split <;> rfl
  · rfl

theorem mem_unsubscribe {s : Subscriber η} (hs : s ∈ (b.unsubscribe j).1.subscribers) :
    ∃ s' ∈ b.subscribers, s'.id = s.id := by
  have : s.id ∈ (b.unsubscribe j).1.subscribers.map (·.id) := List.mem_map_of_mem hs
  rw [unsubscribe_ids] at this
  simpa using this

/-! ## Histories -/

/-- A call on a bus: a subscription with its handler and the signal that wakes its delivery, a
publication, an unsubscription, or one step of a subscriber's delivery. -/
inductive Call (η : Type) where
  | subscribe (topic : String) (handler : η) (signal : Nat)
  | publish (topic : String) (payload : List UInt8)
  | unsubscribe (id : Nat)
  | deliver (id : Nat)

namespace Call

/-- The topic and handler a call subscribes. -/
def subscription? : Call η → Option (String × η)
  | .subscribe t h _ => some (t, h)
  | _ => none

/-- The subscriptions of a history, in order: the `i`-th gets id `i`. -/
def subscriptions (cs : List (Call η)) : List (String × η) := cs.filterMap subscription?

/-- The calls of a history after the subscription with id `i`. -/
def after : List (Call η) → Nat → List (Call η)
  | [], _ => []
  | c :: cs, i =>
    match c.subscription?, i with
    | some _, 0 => cs
    | some _, i + 1 => after cs i
    | none, i => after cs i

/-- The messages published on `topic` in a history until subscription `i` is cancelled. -/
def receives (topic : String) (i : Nat) : List (Call η) → List Message
  | [] => []
  | .publish t p :: cs => (if t = topic then [⟨t, p⟩] else []) ++ receives topic i cs
  | .unsubscribe j :: cs => if j = i then [] else receives topic i cs
  | _ :: cs => receives topic i cs

/-- Whether a history cancels subscription `i`. -/
def cancels (i : Nat) (cs : List (Call η)) : Bool :=
  cs.any fun | .unsubscribe j => j == i | _ => false

/-- What a call publishes on `topic`. -/
def message? (topic : String) : Call η → List Message
  | .publish t p => if t = topic then [⟨t, p⟩] else []
  | _ => []

/-- What subscription `i` is to receive: the messages published on its topic after it was made
and before it was cancelled. -/
def expected (cs : List (Call η)) (i : Nat) : List Message :=
  match (subscriptions cs)[i]? with
  | some (t, _) => receives t i (after cs i)
  | none => []

/-- Whether subscription `i` was cancelled. -/
def cancelled (cs : List (Call η)) (i : Nat) : Bool := cancels i (after cs i)

/-- The subscriptions to `topic` in a history that are not cancelled, by id. -/
def liveOn (cs : List (Call η)) (topic : String) : List Nat :=
  (List.range (subscriptions cs).length).filter fun j =>
    (subscriptions cs)[j]?.map (·.1) == some topic && !cancelled cs j

variable {cs l : List (Call η)} {c : Call η} {topic : String}

theorem subscriptions_append : subscriptions (cs ++ l) = subscriptions cs ++ subscriptions l :=
  List.filterMap_append

theorem after_append (hi : i < (subscriptions cs).length) :
    after (cs ++ l) i = after cs i ++ l := by
  induction cs generalizing i with
  | nil => simp [subscriptions] at hi
  | cons c cs ih =>
    cases hc : c.subscription? with
    | none =>
      simp only [subscriptions, List.filterMap_cons, hc] at hi
      simp [after, hc, ih hi]
    | some p =>
      simp only [subscriptions, List.filterMap_cons, hc, List.length_cons] at hi
      cases i with
      | zero => simp [after, hc]
      | succ i => simp [after, hc, ih (by simpa [subscriptions] using hi)]

theorem after_length_append {p : String × η} (hc : c.subscription? = some p) :
    after (cs ++ c :: l) (subscriptions cs).length = l := by
  induction cs with
  | nil => simp [after, hc, subscriptions]
  | cons d cs ih =>
    cases hd : d.subscription? with
    | none => simpa [after, hd, subscriptions] using ih
    | some q => simpa [after, hd, subscriptions] using ih

theorem receives_append :
    receives topic i (cs ++ [c]) =
      if cancels i cs then receives topic i cs else receives topic i cs ++ message? topic c := by
  induction cs with
  | nil => cases c <;> simp [receives, cancels, message?]
  | cons d cs ih =>
    cases d with
    | publish t p =>
      have hc : cancels i (.publish t p :: cs) = cancels i cs := by simp [cancels]
      simp only [List.cons_append, receives, ih, hc]
      by_cases hcs : cancels i cs <;> simp [hcs]
    | unsubscribe j => by_cases hj : j = i <;> simp [receives, cancels, hj, ih]
    | subscribe t h sig => simp [receives, cancels, ih]
    | deliver j => simp [receives, cancels, ih]

theorem subscriptions_snoc_none (hc : c.subscription? = none) :
    subscriptions (cs ++ [c]) = subscriptions cs := by
  rw [subscriptions_append]
  simp [subscriptions, hc]

theorem getElem?_subscriptions_append (hi : i < (subscriptions cs).length) :
    (subscriptions (cs ++ l))[i]? = (subscriptions cs)[i]? := by
  rw [subscriptions_append, List.getElem?_append_left hi]

/-- What an older subscription is to receive grows by what a call publishes on its topic, until
it is cancelled. -/
theorem expected_snoc {t : String} {h : η} (hs : (subscriptions cs)[i]? = some (t, h)) :
    expected (cs ++ [c]) i =
      if cancelled cs i then expected cs i else expected cs i ++ message? t c := by
  have hi : i < (subscriptions cs).length := (List.getElem?_eq_some_iff.1 hs).1
  simp only [expected, getElem?_subscriptions_append hi, hs, after_append hi, receives_append,
    cancelled]

theorem cancelled_snoc (hi : i < (subscriptions cs).length) :
    cancelled (cs ++ [c]) i = (cancelled cs i || cancels i [c]) := by
  simp [cancelled, cancels, after_append hi, List.any_append]

theorem quiet_snoc {p : String × η} (hs : (subscriptions cs)[i]? = some p)
    (hm : message? p.1 c = []) (hc : cancels i [c] = false) :
    (subscriptions (cs ++ [c]))[i]? = some p ∧ cancelled (cs ++ [c]) i = cancelled cs i ∧
      expected (cs ++ [c]) i = expected cs i := by
  have hi : i < (subscriptions cs).length := (List.getElem?_eq_some_iff.1 hs).1
  refine ⟨(getElem?_subscriptions_append hi).trans hs, by simp [cancelled_snoc hi, hc], ?_⟩
  rw [expected_snoc hs, hm]
  split <;> simp

end Call

/-! ## Worlds -/

/-- A bus with the history of the calls made on it and the messages handed to handlers, each
with its subscriber and the handler. -/
structure World (η : Type) where
  bus : Bus η := {}
  calls : List (Call η) := []
  handled : List (Nat × η × Message) := []

namespace World

/-- Make a call; a step of a delivery hands the message it takes to the subscriber's handler. -/
def call (w : World η) : Call η → World η
  | .subscribe t h sig =>
    { w with bus := (w.bus.subscribe t h sig).1, calls := w.calls ++ [.subscribe t h sig] }
  | .publish t p => { w with bus := (w.bus.publish t p).1, calls := w.calls ++ [.publish t p] }
  | .unsubscribe j =>
    { w with bus := (w.bus.unsubscribe j).1, calls := w.calls ++ [.unsubscribe j] }
  | .deliver j =>
    let r := w.bus.take j
    { bus := r.1, calls := w.calls ++ [.deliver j],
      handled := w.handled ++ match r.2 with
        | .message m h => [(j, h, m)]
        | _ => [] }

/-- The world a history leaves, from an empty bus. -/
def ofCalls (cs : List (Call η)) : World η := cs.foldl call {}

/-- The messages handed to the handler of subscriber `i`, in order. -/
def handledBy (w : World η) (i : Nat) : List Message := (w.handled.filter (·.1 == i)).map (·.2.2)

/-- The invariant: each subscriber on the bus has the topic and handler of its subscription, is
open until it is cancelled, and its handler got, then its inbox holds, what it is to receive; a
subscriber no longer on the bus was cancelled and got all of it; every message went to the
handler of its subscriber. -/
structure Faithful (w : World η) : Prop where
  next : w.bus.nextId = (Call.subscriptions w.calls).length
  ids_nodup : (w.bus.subscribers.map (·.id)).Nodup
  id_lt : ∀ s ∈ w.bus.subscribers, s.id < w.bus.nextId
  present : ∀ i s, w.bus.sub? i = some s →
    (Call.subscriptions w.calls)[i]? = some (s.topic, s.handler) ∧
      s.isOpen = !Call.cancelled w.calls i ∧ w.handledBy i ++ s.inbox = Call.expected w.calls i
  absent : ∀ i < w.bus.nextId, w.bus.sub? i = none →
    Call.cancelled w.calls i = true ∧ w.handledBy i = Call.expected w.calls i
  handlers : ∀ x ∈ w.handled, ∃ t, (Call.subscriptions w.calls)[x.1]? = some (t, x.2.1)

variable {w : World η}

theorem handledBy_snoc {w' : World η} {x : Nat × η × Message}
    (h : w'.handled = w.handled ++ [x]) :
    w'.handledBy i = w.handledBy i ++ if x.1 = i then [x.2.2] else [] := by
  by_cases hx : x.1 = i <;> simp [handledBy, h, hx]

namespace Faithful

/-- Every message so far went to a subscription already made. -/
theorem handled_lt (hw : w.Faithful) {x : Nat × η × Message} (hx : x ∈ w.handled) :
    x.1 < w.bus.nextId := by
  obtain ⟨t, ht⟩ := hw.handlers x hx
  rw [hw.next]
  exact (List.getElem?_eq_some_iff.1 ht).1

theorem handlers_append (hw : w.Faithful) (l : List (Call η)) :
    ∀ x ∈ w.handled, ∃ t, (Call.subscriptions (w.calls ++ l))[x.1]? = some (t, x.2.1) := by
  intro x hx
  obtain ⟨t, ht⟩ := hw.handlers x hx
  exact ⟨t, (Call.getElem?_subscriptions_append (List.getElem?_eq_some_iff.1 ht).1).trans ht⟩

theorem handledBy_eq_nil (hw : w.Faithful) (hi : w.bus.nextId ≤ i) : w.handledBy i = [] := by
  simp only [handledBy, List.map_eq_nil_iff, List.filter_eq_nil_iff, beq_iff_eq]
  intro x hx hxi
  have := hw.handled_lt hx
  omega

theorem subscribe {t : String} {h : η} {sig : Nat} (hw : w.Faithful) :
    ({ w with bus := (w.bus.subscribe t h sig).1, calls := w.calls ++ [.subscribe t h sig] } :
      World η).Faithful := by
  have hsubs : Call.subscriptions (w.calls ++ [.subscribe t h sig]) =
      Call.subscriptions w.calls ++ [(t, h)] := by
    simp [Call.subscriptions, Call.subscription?]
  have hnew :
      (Call.subscriptions (w.calls ++ [.subscribe t h sig]))[w.bus.nextId]? = some (t, h) := by
    rw [hsubs, hw.next]; simp
  have hafter : Call.after (w.calls ++ [.subscribe t h sig]) w.bus.nextId = [] := by
    rw [hw.next]; exact Call.after_length_append (l := []) rfl
  have hold := fun {i : Nat} {p : String × η} (hs : (Call.subscriptions w.calls)[i]? = some p) =>
    Call.quiet_snoc (c := .subscribe t h sig) hs rfl rfl
  refine ⟨by simp [Bus.subscribe, hsubs, hw.next], ?_, ?_, fun i s hs => ?_, fun i hi hs => ?_,
    hw.handlers_append _⟩
  · simp only [Bus.subscribe, List.map_append, List.map_cons, List.map_nil]
    refine List.nodup_append.2 ⟨hw.ids_nodup, List.nodup_singleton _, ?_⟩
    intro a ha b hb
    obtain ⟨s, hs, rfl⟩ := List.mem_map.1 ha
    simp only [List.mem_singleton] at hb
    exact hb ▸ Nat.ne_of_lt (hw.id_lt s hs)
  · intro s hs
    simp only [Bus.subscribe, List.mem_append, List.mem_singleton] at hs ⊢
    rcases hs with hs | rfl
    · exact Nat.lt_succ_of_lt (hw.id_lt s hs)
    · exact Nat.lt_succ_self _
  · simp only [sub?_subscribe hw.id_lt] at hs
    split at hs
    · -- the new subscriber: open, nothing received, nothing to receive
      rename_i hi
      subst hi
      cases hs
      have hcan : Call.cancelled (w.calls ++ [.subscribe t h sig]) w.bus.nextId = false := by
        simp [Call.cancelled, hafter, Call.cancels]
      refine ⟨hnew, by simp [hcan], ?_⟩
      have hgot : w.handledBy w.bus.nextId = [] := hw.handledBy_eq_nil (Nat.le_refl _)
      simp only [handledBy] at hgot
      simp [hgot, Call.expected, hnew, hafter, Call.receives, handledBy]
    · obtain ⟨hsub, hopen, hgot⟩ := hw.present i s hs
      obtain ⟨hsub', hcan, hexp⟩ := hold hsub
      exact ⟨hsub', by rw [hcan, hopen], by rw [hexp, ← hgot]; rfl⟩
  · -- a subscriber gone from the bus is an older one
    have hne : i ≠ w.bus.nextId := by
      rintro rfl
      simp [sub?_subscribe hw.id_lt] at hs
    simp only [sub?_subscribe hw.id_lt, hne, if_false] at hs
    have hlt : i < w.bus.nextId := by
      simp only [Bus.subscribe] at hi
      omega
    obtain ⟨hcan, hgot⟩ := hw.absent i hlt hs
    obtain ⟨-, hcan', hexp⟩ := hold (List.getElem?_eq_getElem (hw.next ▸ hlt))
    exact ⟨by rw [hcan', hcan], by rw [hexp, ← hgot]; rfl⟩

theorem publish {t : String} {q : List UInt8} (hw : w.Faithful) :
    ({ w with bus := (w.bus.publish t q).1, calls := w.calls ++ [.publish t q] } :
      World η).Faithful := by
  have hids : (w.bus.publish t q).1.subscribers.map (·.id) = w.bus.subscribers.map (·.id) := by
    simp only [Bus.publish, List.map_map]
    congr 1; funext s; simp only [Function.comp]; split <;> rfl
  have hold : ∀ {i : Nat} {p : String × η}, (Call.subscriptions w.calls)[i]? = some p →
      (Call.subscriptions (w.calls ++ [.publish t q]))[i]? = some p ∧
        Call.cancelled (w.calls ++ [.publish t q]) i = Call.cancelled w.calls i := by
    intro i p hs
    have hi := (List.getElem?_eq_some_iff.1 hs).1
    exact ⟨(Call.getElem?_subscriptions_append hi).trans hs,
      by simp [Call.cancelled_snoc hi, Call.cancels]⟩
  refine ⟨by rw [Call.subscriptions_snoc_none rfl]; exact hw.next, hids ▸ hw.ids_nodup,
    fun s hs => ?_, fun i s hs => ?_, fun i hi hs => ?_, hw.handlers_append _⟩
  · have : s.id ∈ (w.bus.publish t q).1.subscribers.map (·.id) := List.mem_map_of_mem hs
    rw [hids] at this
    obtain ⟨s', hs', he⟩ := List.mem_map.1 this
    exact he ▸ hw.id_lt s' hs'
  · simp only [sub?_publish, Option.map_eq_some_iff] at hs
    obtain ⟨s, hs, rfl⟩ := hs
    obtain ⟨hsub, hopen, hgot⟩ := hw.present i s hs
    obtain ⟨hsub', hcan⟩ := hold hsub
    have hexp := Call.expected_snoc (c := .publish t q) hsub
    dsimp only [handledBy] at hgot ⊢
    rw [hexp, hcan]
    cases ho : s.isOpen
    · have hc : Call.cancelled w.calls i = true := by simpa [ho] using hopen
      simp only [Bool.false_and, if_false, Bool.false_eq_true, hc, if_true]
      exact ⟨hsub', by simp [ho], hgot⟩
    · have hc : Call.cancelled w.calls i = false := by simpa [ho] using hopen
      by_cases ht : s.topic = t
      · simp only [ht, beq_self_eq_true, Bool.and_self, if_true, hc, Bool.false_eq_true,
          if_false, Call.message?]
        exact ⟨by simpa only [ht] using hsub', by simp, by rw [← List.append_assoc, hgot]⟩
      · have ht' : ¬t = s.topic := Ne.symm ht
        simp only [ho, ht, beq_iff_eq, Bool.true_and, Bool.false_eq_true, if_false,
          hc, Call.message?, ht', List.append_nil]
        exact ⟨hsub', by simp, hgot⟩
  · simp only [sub?_publish, Option.map_eq_none_iff] at hs
    obtain ⟨hcan, hgot⟩ := hw.absent i hi hs
    have hsub := List.getElem?_eq_getElem (hw.next ▸ hi)
    obtain ⟨-, hcan'⟩ := hold hsub
    dsimp only [handledBy] at hgot ⊢
    rw [hcan', Call.expected_snoc hsub, if_pos hcan, ← hgot]
    exact ⟨hcan, rfl⟩

theorem unsubscribe {j : Nat} (hw : w.Faithful) :
    ({ w with bus := (w.bus.unsubscribe j).1, calls := w.calls ++ [.unsubscribe j] } :
      World η).Faithful := by
  have hold : ∀ {i : Nat} {p : String × η}, (Call.subscriptions w.calls)[i]? = some p →
      (Call.subscriptions (w.calls ++ [.unsubscribe j]))[i]? = some p ∧
        Call.cancelled (w.calls ++ [.unsubscribe j]) i = (Call.cancelled w.calls i || j == i) ∧
        Call.expected (w.calls ++ [.unsubscribe j]) i = Call.expected w.calls i := by
    intro i p hs
    have hi := (List.getElem?_eq_some_iff.1 hs).1
    refine ⟨(Call.getElem?_subscriptions_append hi).trans hs,
      by simp [Call.cancelled_snoc hi, Call.cancels], ?_⟩
    rw [Call.expected_snoc hs]
    split <;> simp [Call.message?]
  refine ⟨by rw [Call.subscriptions_snoc_none rfl, unsubscribe_nextId]; exact hw.next,
    by dsimp only; rw [unsubscribe_ids]; exact hw.ids_nodup, fun s hs => ?_,
    fun i s hs => ?_, fun i hi hs => ?_, hw.handlers_append _⟩
  · obtain ⟨s', hs', he⟩ := mem_unsubscribe hs
    rw [unsubscribe_nextId, ← he]
    exact hw.id_lt s' hs'
  · simp only [sub?_unsubscribe, Option.map_eq_some_iff] at hs
    obtain ⟨s, hs, rfl⟩ := hs
    obtain ⟨hsub, hopen, hgot⟩ := hw.present i s hs
    obtain ⟨hsub', hcan, hexp⟩ := hold hsub
    have hid : s.id = i := (sub?_spec hs).2
    by_cases hj : i = j
    · subst hj
      simp only [hid, if_true]
      exact ⟨hsub', by simp [hcan], by rw [hexp, ← hgot]; rfl⟩
    · simp only [hid, hj, if_false]
      exact ⟨hsub', by simp [hcan, hopen, Ne.symm hj], by rw [hexp, ← hgot]; rfl⟩
  · rw [unsubscribe_nextId] at hi
    simp only [sub?_unsubscribe, Option.map_eq_none_iff] at hs
    obtain ⟨hcan, hgot⟩ := hw.absent i hi hs
    obtain ⟨-, hcan', hexp⟩ := hold (List.getElem?_eq_getElem (hw.next ▸ hi))
    exact ⟨by simp [hcan', hcan], by rw [hexp, ← hgot]; rfl⟩

theorem deliver_quiet (hw : w.Faithful) :
    ({ w with calls := w.calls ++ [.deliver j] } : World η).Faithful := by
  have hold := fun {i : Nat} {p : String × η} (hs : (Call.subscriptions w.calls)[i]? = some p) =>
    Call.quiet_snoc (c := .deliver j) hs rfl rfl
  refine ⟨by rw [Call.subscriptions_snoc_none rfl]; exact hw.next, hw.ids_nodup, hw.id_lt,
    fun i s hs => ?_, fun i hi hs => ?_, hw.handlers_append _⟩
  · obtain ⟨hsub, hopen, hgot⟩ := hw.present i s hs
    obtain ⟨hsub', hcan, hexp⟩ := hold hsub
    exact ⟨hsub', by rw [hcan, hopen], by rw [hexp, ← hgot]; rfl⟩
  · obtain ⟨hcan, hgot⟩ := hw.absent i hi hs
    obtain ⟨-, hcan', hexp⟩ := hold (List.getElem?_eq_getElem (hw.next ▸ hi))
    exact ⟨by rw [hcan', hcan], by rw [hexp, ← hgot]; rfl⟩

theorem handOver {s : Subscriber η} {m : Message} {rest : List Message} (hw : w.Faithful)
    (hs : w.bus.sub? j = some s) (hin : s.inbox = m :: rest) :
    ({ w with
        bus := { w.bus with subscribers := w.bus.subscribers.map fun t =>
          if t.id == j then { t with inbox := rest } else t },
        handled := w.handled ++ [(j, s.handler, m)] } : World η).Faithful := by
  have hid : ∀ t : Subscriber η, (if t.id == j then { t with inbox := rest } else t).id = t.id :=
    fun t => by split <;> rfl
  refine ⟨hw.next, ?_, fun t ht => ?_, fun i s' hs' => ?_, fun i hi hs' => ?_, fun x hx => ?_⟩
  · rw [ids_map hid]; exact hw.ids_nodup
  · obtain ⟨t₀, ht₀, rfl⟩ := List.mem_map.1 ht
    rw [hid]; exact hw.id_lt t₀ ht₀
  · simp only [sub?_take_message, Option.map_eq_some_iff] at hs'
    obtain ⟨s₀, hs₀, rfl⟩ := hs'
    obtain ⟨hsub, hopen, hgot⟩ := hw.present i s₀ hs₀
    have hid₀ : s₀.id = i := (sub?_spec hs₀).2
    by_cases hij : i = j
    · subst hij
      obtain rfl : s₀ = s := Option.some.inj (hs₀.symm.trans hs)
      rw [if_pos hid₀]
      refine ⟨hsub, hopen, ?_⟩
      rw [handledBy_snoc rfl, if_pos rfl, ← hgot, hin]
      simp
    · rw [if_neg (by rw [hid₀]; exact hij)]
      refine ⟨hsub, hopen, ?_⟩
      rw [handledBy_snoc rfl, if_neg (Ne.symm hij), List.append_nil, hgot]
  · simp only [sub?_take_message, Option.map_eq_none_iff] at hs'
    have hij : j ≠ i := by rintro rfl; simp [hs] at hs'
    obtain ⟨hcan, hgot⟩ := hw.absent i hi hs'
    exact ⟨hcan, by rw [handledBy_snoc rfl, if_neg hij, List.append_nil, hgot]⟩
  · rcases List.mem_append.1 hx with hx | hx
    · exact hw.handlers x hx
    · rw [List.mem_singleton] at hx
      subst hx
      exact ⟨s.topic, (hw.present j s hs).1⟩

/-- Taking a closed subscriber whose inbox is empty off the bus keeps the invariant: it was
cancelled, and its handler got all it was to receive. -/
theorem remove {s : Subscriber η} (hw : w.Faithful) (hs : w.bus.sub? j = some s)
    (hin : s.inbox = []) (ho : s.isOpen = false) :
    ({ w with bus := { w.bus with subscribers := w.bus.subscribers.filter (·.id != j) } } :
      World η).Faithful := by
  refine ⟨hw.next, ((List.filter_sublist).map _).nodup hw.ids_nodup,
    fun t ht => hw.id_lt t (List.mem_of_mem_filter ht), fun i s' hs' => ?_, fun i hi hs' => ?_,
    hw.handlers⟩
  · rw [sub?_take_closed] at hs'
    split at hs'
    · cases hs'
    · exact hw.present i s' hs'
  · rw [sub?_take_closed] at hs'
    by_cases hij : i = j
    · subst hij
      obtain ⟨-, hopen, hgot⟩ := hw.present i s hs
      rw [hin, List.append_nil] at hgot
      exact ⟨by simpa [ho] using hopen, hgot⟩
    · rw [if_neg hij] at hs'
      exact hw.absent i hi hs'

/-- A step of a delivery keeps the invariant, whatever it finds. -/
theorem deliver (hw : w.Faithful) : (w.call (.deliver j)).Faithful := by
  have hq := hw.deliver_quiet (j := j)
  rcases take_cases w.bus j with ⟨-, ht⟩ | ⟨s, m, rest, hs, hin, ht⟩ |
    ⟨s, -, -, -, ht⟩ | ⟨s, hs, hin, ho, ht⟩
  · simp only [call, ht, List.append_nil]
    exact hq
  · simp only [call, ht]
    exact hq.handOver hs hin
  · simp only [call, ht, List.append_nil]
    exact hq
  · simp only [call, ht, List.append_nil]
    exact hq.remove hs hin ho

/-- A topic counts as open subscribers exactly its subscriptions not cancelled. -/
theorem subscriberCount_eq (hw : w.Faithful) (topic : String) :
    w.bus.subscriberCount topic = (Call.liveOn w.calls topic).length := by
  let live := w.bus.subscribers.filter fun s => s.isOpen && s.topic == topic
  have hn : (live.map (·.id)).Nodup := (List.filter_sublist.map _).nodup hw.ids_nodup
  have hmem : ∀ j, j ∈ live.map (·.id) ↔ j ∈ Call.liveOn w.calls topic := by
    intro j
    simp only [live, Call.liveOn, List.mem_map, List.mem_filter, List.mem_range, Bool.and_eq_true,
      beq_iff_eq, Bool.not_eq_true']
    constructor
    · rintro ⟨s, ⟨hs, ho, rfl⟩, rfl⟩
      obtain ⟨hsub, hopen, -⟩ := hw.present s.id s (sub?_of_mem hw.ids_nodup hs)
      refine ⟨(List.getElem?_eq_some_iff.1 hsub).1, by simp [hsub], ?_⟩
      simpa [ho] using hopen
    · rintro ⟨hj, ht, hc⟩
      cases hs : w.bus.sub? j with
      | none =>
        have hcan := (hw.absent j (by rw [hw.next]; exact hj) hs).1
        simp [hc] at hcan
      | some s =>
        obtain ⟨hsub, hopen, -⟩ := hw.present j s hs
        obtain ⟨hs', hid⟩ := sub?_spec hs
        rw [hsub, Option.map_some] at ht
        exact ⟨s, ⟨hs', by simp [hopen, hc], Option.some.inj ht⟩, hid⟩
  have hperm := (List.perm_ext_iff_of_nodup hn (List.nodup_range.filter _)).2 hmem
  rw [Bus.subscriberCount, ← List.length_map (f := (·.id))]
  exact hperm.length_eq

theorem empty : ({} : World η).Faithful where
  next := rfl
  ids_nodup := List.nodup_nil
  id_lt := by simp
  present := by simp [sub?]
  absent := by simp
  handlers := by simp

end Faithful

theorem faithful_call (hw : w.Faithful) : ∀ c : Call η, (w.call c).Faithful
  | .subscribe .. => hw.subscribe
  | .publish .. => hw.publish
  | .unsubscribe _ => hw.unsubscribe
  | .deliver _ => hw.deliver

theorem calls_call (w : World η) (c : Call η) : (w.call c).calls = w.calls ++ [c] := by
  cases c <;> rfl

theorem calls_foldl (w : World η) (cs : List (Call η)) :
    (cs.foldl call w).calls = w.calls ++ cs := by
  induction cs generalizing w with
  | nil => simp
  | cons c cs ih => rw [List.foldl_cons, ih, calls_call, List.append_assoc]; rfl

/-- The invariant holds all along a run: induction on the calls, from any faithful world. -/
theorem faithful_foldl (hw : w.Faithful) (cs : List (Call η)) : (cs.foldl call w).Faithful := by
  induction cs generalizing w with
  | nil => exact hw
  | cons c cs ih => exact ih (faithful_call hw c)

theorem calls_ofCalls (cs : List (Call η)) : (ofCalls cs).calls = cs := by
  unfold ofCalls
  simpa using calls_foldl {} cs

theorem faithful_ofCalls (cs : List (Call η)) : (ofCalls cs).Faithful :=
  faithful_foldl Faithful.empty cs

theorem ofCalls_append (cs l : List (Call η)) : ofCalls (cs ++ l) = l.foldl call (ofCalls cs) :=
  List.foldl_append

/-! ## Draining an inbox -/

/-- The messages waiting in the inbox of subscriber `i`; none once it is off the bus. -/
def pending (w : World η) (i : Nat) : List Message := ((w.bus.sub? i).map (·.inbox)).getD []

/-- What a subscription's handler got, then what waits for it, is what it is to receive; for a
subscription not yet made, both are empty. -/
theorem Faithful.handledBy_append_pending (hw : w.Faithful) (i : Nat) :
    w.handledBy i ++ w.pending i = Call.expected w.calls i := by
  unfold pending
  cases hs : w.bus.sub? i with
  | some s => exact (hw.present i s hs).2.2
  | none =>
    simp only [Option.map_none, Option.getD_none, List.append_nil]
    by_cases hi : i < w.bus.nextId
    · exact (hw.absent i hi hs).2
    · have hn : (Call.subscriptions w.calls)[i]? = none :=
        List.getElem?_eq_none (by rw [← hw.next]; omega)
      rw [hw.handledBy_eq_nil (by omega)]
      simp [Call.expected, hn]

theorem deliver_self (w : World η) (i : Nat) :
    (w.call (.deliver i)).handledBy i = w.handledBy i ++ (w.pending i).take 1 ∧
      (w.call (.deliver i)).pending i = (w.pending i).drop 1 := by
  rcases take_cases w.bus i with ⟨hn, ht⟩ | ⟨s, m, rest, hs, hin, ht⟩ |
    ⟨s, hs, hin, -, ht⟩ | ⟨s, hs, hin, -, ht⟩
  · simp [call, ht, pending, hn, handledBy]
  · simp only [call, ht]
    refine ⟨by rw [handledBy_snoc rfl]; simp [pending, hs, hin], ?_⟩
    simp only [pending, sub?_take_message]
    simp [hs, (sub?_spec hs).2, hin]
  · simp [call, ht, pending, hs, hin, handledBy]
  · simp only [call, ht]
    simp [pending, sub?_take_closed, hs, hin, handledBy]

/-- Delivering to a subscriber `n` times hands its handler the first `n` messages waiting. -/
theorem drain (w : World η) (i n : Nat) :
    ((List.replicate n (Call.deliver i)).foldl call w).handledBy i =
      w.handledBy i ++ (w.pending i).take n := by
  induction n generalizing w with
  | zero => simp
  | succ n ih =>
    obtain ⟨hgot, hpend⟩ := deliver_self w i
    rw [List.replicate_succ, List.foldl_cons, ih, hgot, hpend, List.append_assoc, ← List.take_add,
      Nat.add_comm]

end World

end Backplane.Bus

/-! ## Handlers leave the bus alone

Handling a message does not wait, so it runs alone, and it changes logs, caches, statuses or
the kernel but never the bus. Whatever a handler makes of a message, a failure or a payload it
cannot decode included, the deliveries after it are those of the bus without it. -/

namespace Backplane.Host

open Backplane.Fiber Prog

theorem fixes_logAppend {log : Nat} {v : Json} : Fixes Host.bus (logAppend log v) :=
  fixes_modify fun _ => rfl

theorem fixes_modifyHybrid {i : Nat} {g : Cache.Hybrid → Cache.Hybrid} :
    Fixes Host.bus (modifyHybrid i g) :=
  fixes_modify fun _ => rfl

theorem fixes_onCache {α : Type} [Inhabited α] {i : Nat} {op : Cache.Op α} :
    Fixes Host.bus (onCache i op) :=
  fixes_modifyGet fun _ => by split <;> (try split) <;> rfl

theorem fixes_now : Fixes Host.bus now := fixes_get.bind fun _ => fixes_pure

theorem fixes_invalidate {i : Nat} {msg : Json} : Fixes Host.bus (invalidate i msg) := by
  unfold invalidate
  refine (fixes_get.bind fun _ => fixes_pure).bind fun hc => ?_
  split
  · split
    · exact fixes_pure
    · refine fixes_modifyHybrid.bind fun _ => fixes_now.bind fun t => ?_
      split
      · exact fixes_onCache.bind fun _ => fixes_modifyHybrid
      · exact fixes_onCache.bind fun _ => fixes_modifyHybrid
  · exact fixes_pure

theorem fixes_handle (hd : Handler) (m : Message) : Fixes Host.bus (handle hd m) := by
  unfold handle
  dsimp only
  -- one case per alternative of the handler: it decodes the payload, then takes one step that
  -- leaves the bus alone
  split
  · split
    · exact fixes_logAppend
    · split
      · exact fixes_logAppend
      · exact fixes_logAppend
  · split
    · split
      · exact fixes_logAppend
      · exact fixes_pure
    · exact fixes_pure
  · split
    · exact fixes_invalidate
    · exact fixes_pure
  · split
    · unfold notifyWaiters updateKernel
      exact fixes_onKernel fun _ _ => rfl
    · exact fixes_pure
  · split
    · exact fixes_modify fun _ => rfl
    · exact fixes_pure

end Backplane.Host

namespace Backplane.Bus

variable {η : Type}

/-- Delivery on the bus, over every history of calls from an empty bus, every subscription `i`
and every topic. The handler of `i` got a prefix of the messages published on its topic after it
was made and before it was cancelled, each once and in publish order, and the rest wait in its
inbox; as many more steps of its delivery as there are messages waiting hand it all of them. The
bus sends to it exactly until it is cancelled, and each message went to the handler of its own
subscription. Handling a message never touches the bus, so no handler, failing or not, changes a
delivery. A topic counts as subscribers its subscriptions not cancelled. -/
theorem delivery_exactly_once (cs : List (Call η)) (i : Nat) (topic : String) :
    (World.ofCalls cs).handledBy i ++ (World.ofCalls cs).pending i = Call.expected cs i ∧
      (World.ofCalls (cs ++ List.replicate ((World.ofCalls cs).pending i).length (.deliver i))).handledBy
        i = Call.expected cs i ∧
      (∀ s, (World.ofCalls cs).bus.sub? i = some s → s.isOpen = !Call.cancelled cs i) ∧
      (∀ x ∈ (World.ofCalls cs).handled, ∃ t, (Call.subscriptions cs)[x.1]? = some (t, x.2.1)) ∧
      (∀ (hd : Handler) (m : Message), Fiber.Prog.Fixes Host.bus (Host.handle hd m)) ∧
      (World.ofCalls cs).bus.subscriberCount topic = (Call.liveOn cs topic).length := by
  have hw := World.faithful_ofCalls cs
  have hcalls := World.calls_ofCalls cs
  refine ⟨by simpa only [hcalls] using hw.handledBy_append_pending i, ?_,
    fun s hs => by simpa only [hcalls] using (hw.present i s hs).2.1,
    fun x hx => by simpa only [hcalls] using hw.handlers x hx, Host.fixes_handle,
    by simpa only [hcalls] using hw.subscriberCount_eq topic⟩
  rw [World.ofCalls_append, World.drain, List.take_length, hw.handledBy_append_pending, hcalls]

/- A subscriber unsubscribed after one publication on its topic still gets that message, and
none of those that follow. -/
example : (World.ofCalls [.subscribe "t" () 0, .publish "t" [1], .publish "u" [2],
    .unsubscribe 0, .publish "t" [3], .deliver 0, .deliver 0, .deliver 0]).handledBy 0 =
    [⟨"t", [1]⟩] := by
  decide

end Backplane.Bus
