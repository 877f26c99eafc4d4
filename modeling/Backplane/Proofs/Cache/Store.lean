import Mathlib.Data.List.Nodup
import Backplane.Cache.Store

/-!
# The cache store: lookups and atomic operations

What the operations a lock makes on a cache (`add`, `replaceIfEqual`, `removeIfEqual`, `read`,
`contains`, `expiration`) do to its entries, stated for the two cases every one of them starts
from: the key holds a live entry, or it holds none (nothing, or an expired entry, which the
operation drops on the way).

A cache `c'` *keeps* the live entries of `c` at an instant (`Keeps`) when it holds no entry
that `c` did not hold, up to the instant of its last read, and every entry of `c` that is live
then is still there. Every read keeps the live entries.
-/

namespace Backplane.Cache.Store

variable {s s' s'' : Store} {k k' : String} {t : Stamp} {e e' : Entry}

/-! ## Lookups -/

theorem mem_of_find? (h : s.find? k = some e) : (k, e) ∈ s.entries := by
  unfold find? at h
  obtain ⟨p, hp, rfl⟩ := Option.map_eq_some_iff.1 h
  have hk : p.1 = k := by simpa using List.find?_some hp
  rw [← hk]
  exact List.mem_of_find?_eq_some hp

theorem find?_erase : (s.erase k).find? k' = if k' = k then none else s.find? k' := by
  by_cases h : k' = k
  · subst h
    simp [find?, erase, List.find?_filter]
  · simp only [find?, erase, List.find?_filter, h, if_false]
    congr 2; funext p
    by_cases hp : p.1 = k' <;> simp [hp, h]

theorem mem_erase : (k', e') ∈ (s.erase k).entries ↔ (k', e') ∈ s.entries ∧ k' ≠ k := by
  simp [erase]

theorem erase_of_find?_none (h : s.find? k = none) : s.erase k = s := by
  simp only [find?, Option.map_eq_none_iff, List.find?_eq_none] at h
  have : s.entries.filter (fun p => p.1 != k) = s.entries :=
    List.filter_eq_self.2 fun p hp => by simpa using h p hp
  simp [erase, this]

theorem find?_update :
    (s.update k e).find? k' = if k' = k then (s.find? k).map fun _ => e else s.find? k' := by
  have hp : ((fun p : String × Entry => p.1 == k') ∘ fun p => if p.1 == k then (k, e) else p) =
      fun p => p.1 == k' := by
    funext p; by_cases h : p.1 = k <;> simp [h]
  simp only [find?, update]
  rw [List.find?_map, hp]
  cases h : s.entries.find? (·.1 == k') with
  | none =>
    by_cases hk : k' = k
    · subst hk; simp [h]
    · simp [hk]
  | some p =>
    have hpk : p.1 = k' := by simpa using List.find?_some h
    by_cases hk : k' = k
    · subst hk; simp [h, hpk]
    · simp [hk, hpk]

theorem mem_update (h : (k', e') ∈ (s.update k e).entries) :
    (k', e') ∈ s.entries ∧ k' ≠ k ∨ k' = k ∧ e' = e := by
  simp only [update, List.mem_map] at h
  obtain ⟨p, hp, he⟩ := h
  by_cases hk : p.1 = k
  · simp only [hk, beq_self_eq_true, if_true, Prod.mk.injEq] at he
    exact .inr ⟨he.1.symm, he.2.symm⟩
  · simp only [hk, beq_iff_eq, if_false] at he
    subst he
    exact .inl ⟨hp, hk⟩

@[simp] theorem find?_writes {n : Nat} : ({ s with writes := n } : Store).find? k = s.find? k := rfl

theorem find?_append (hf : s.find? k = none) {n : Nat} :
    ({ s with entries := s.entries ++ [(k, e)], writes := n } : Store).find? k' =
      if k' = k then some e else s.find? k' := by
  simp only [find?, Option.map_eq_none_iff, List.find?_eq_none] at hf ⊢
  rw [List.find?_append]
  by_cases hk : k' = k
  · subst hk
    have : s.entries.find? (·.1 == k') = none :=
      List.find?_eq_none.2 fun p hp => by simpa using hf p hp
    simp [this]
  · cases h : s.entries.find? (·.1 == k') <;> simp [Ne.symm hk, hk]

/-! ## The operations a lock makes

Each starts by looking the key up (`live`), which drops an expired entry. -/

/-- Inserting a key that is not stored into an unbounded cache appends it. -/
theorem insert_run (hu : s.maxItems = none) (hf : s.find? k = none) :
    (insert k e t).run s =
      ((), { s with entries := s.entries ++ [(k, e)], writes := s.writes + 1 }) := by
  simp only [find?, Option.map_eq_none_iff] at hf
  simp [insert, find?, hf, hu]
  rfl

section live

variable (hf : s.find? k = some e) (he : e.isExpired t = false)
include hf he

theorem live_run_live : (live k t).run s = (some e, s) := by
  simp [live, hf, he]; rfl

theorem add_run_live {v : Bytes} {ttl : Option Duration} : (add k v ttl t).run s = (false, s) := by
  simp [add, live, hf, he]; rfl

theorem replaceIfEqual_run_live {exp v : Bytes} {ttl : Option Duration} :
    (replaceIfEqual k exp v ttl t).run s =
      if e.value = exp then
        (true, { s.update k (e.write v (expiry t ttl) t) with writes := s.writes + 1 })
      else (false, s) := by
  by_cases hv : e.value = exp
  · simp [replaceIfEqual, live, hf, he, hv]; rfl
  · simp [replaceIfEqual, live, hf, he, hv]; rfl

theorem removeIfEqual_run_live {exp : Bytes} :
    (removeIfEqual k exp t).run s = if e.value = exp then (true, s.erase k) else (false, s) := by
  by_cases hv : e.value = exp
  · simp [removeIfEqual, live, hf, he, hv]; rfl
  · simp [removeIfEqual, live, hf, he, hv]; rfl

theorem read_run_live :
    (read k t).run s =
      (some ⟨e.value, e.expiresAt⟩,
        { s.update k { e with lastAccessAt := t } with hits := s.hits + 1 }) := by
  simp [read, live, hf, he]; rfl

end live

section dead

variable (hd : ∀ e, s.find? k = some e → e.isExpired t = true)
include hd

theorem live_run_dead : (live k t).run s = (none, s.erase k) := by
  cases h : s.find? k with
  | none => simp [live, h, erase_of_find?_none h]; rfl
  | some e => simp [live, h, hd e h]; rfl

theorem add_run_dead {v : Bytes} {ttl : Option Duration} (hu : s.maxItems = none) :
    (add k v ttl t).run s =
      (true, { s.erase k with
                entries := (s.erase k).entries ++ [(k, Entry.fresh v (expiry t ttl) t)],
                writes := s.writes + 1 }) := by
  have hf : (s.erase k).find? k = none := by simp [find?_erase]
  cases h : s.find? k with
  | none =>
    rw [erase_of_find?_none h] at hf ⊢
    simp [add, live, h, insert_run hu hf]; rfl
  | some e =>
    simp [add, live, h, hd e h, insert_run (s := s.erase k) hu hf]; rfl

theorem replaceIfEqual_run_dead {exp v : Bytes} {ttl : Option Duration} :
    (replaceIfEqual k exp v ttl t).run s = (false, s.erase k) := by
  cases h : s.find? k with
  | none => simp [replaceIfEqual, live, h, erase_of_find?_none h]; rfl
  | some e => simp [replaceIfEqual, live, h, hd e h]; rfl

theorem removeIfEqual_run_dead {exp : Bytes} :
    (removeIfEqual k exp t).run s = (false, s.erase k) := by
  cases h : s.find? k with
  | none => simp [removeIfEqual, live, h, erase_of_find?_none h]; rfl
  | some e => simp [removeIfEqual, live, h, hd e h]; rfl

theorem read_run_dead : (read k t).run s = (none, { s.erase k with misses := s.misses + 1 }) := by
  cases h : s.find? k with
  | none => simp [read, live, h, erase_of_find?_none h]; rfl
  | some e => simp [read, live, h, hd e h]; rfl

/-- Dropping a key with no live entry changes what no key reads. -/
theorem live_run_erase {k' : String} :
    ((live k' t).run (s.erase k)).1 = ((live k' t).run s).1 := by
  by_cases hk : k' = k
  · subst hk
    have hn : (s.erase k').find? k' = none := by simp [find?_erase]
    rw [live_run_dead hd, live_run_dead fun e h => by simp [hn] at h]
  · cases h : s.find? k' with
    | none =>
      have hn : (s.erase k).find? k' = none := by simp [find?_erase, hk, h]
      simp [live, h, hn]; rfl
    | some e' =>
      have hn : (s.erase k).find? k' = some e' := by simp [find?_erase, hk, h]
      by_cases he : e'.isExpired t <;> simp [live, h, hn, he] <;> rfl

end dead

theorem contains_run :
    (contains k t).run s = (((read k t).run s).1.isSome, ((read k t).run s).2) := by
  simp [contains]; rfl

theorem expiration_run : ((expiration k t).run s).2 = ((live k t).run s).2 := by
  simp [expiration]; rfl

/-! ## Keeping the live entries -/

/-- `s'` holds no entry that `s` did not hold, up to the instant of its last read, and keeps
every entry of `s` live at `t`. -/
def Keeps (t : Stamp) (s s' : Store) : Prop :=
  s'.maxItems = s.maxItems ∧
    (∀ k e', (k, e') ∈ s'.entries →
      ∃ e, (k, e) ∈ s.entries ∧ e.value = e'.value ∧ e.expiresAt = e'.expiresAt) ∧
    (∀ k e, s.find? k = some e → e.isExpired t = false →
      ∃ e', s'.find? k = some e' ∧ e'.value = e.value ∧ e'.expiresAt = e.expiresAt)

namespace Keeps

theorem refl : Keeps t s s :=
  ⟨rfl, fun _ e' h => ⟨e', h, rfl, rfl⟩, fun _ e h _ => ⟨e, h, rfl, rfl⟩⟩

theorem trans (h₁ : Keeps t s s') (h₂ : Keeps t s' s'') : Keeps t s s'' := by
  refine ⟨h₂.1.trans h₁.1, fun k e'' h => ?_, fun k e h he => ?_⟩
  · obtain ⟨e', h', hv', hx'⟩ := h₂.2.1 k e'' h
    obtain ⟨e, h, hv, hx⟩ := h₁.2.1 k e' h'
    exact ⟨e, h, hv.trans hv', hx.trans hx'⟩
  · obtain ⟨e', h', hv', hx'⟩ := h₁.2.2 k e h he
    have he' : e'.isExpired t = false := by simpa [Entry.isExpired, hx'] using he
    obtain ⟨e'', h'', hv'', hx''⟩ := h₂.2.2 k e' h' he'
    exact ⟨e'', h'', hv''.trans hv', hx''.trans hx'⟩

theorem of_entries (h : s'.entries = s.entries) (hm : s'.maxItems = s.maxItems) : Keeps t s s' := by
  have hf : ∀ k, s'.find? k = s.find? k := fun k => by simp [find?, h]
  exact ⟨hm, fun k e' he' => ⟨e', h ▸ he', rfl, rfl⟩,
    fun k e he _ => ⟨e, (hf k).trans he, rfl, rfl⟩⟩

theorem erase (hd : ∀ e, s.find? k = some e → e.isExpired t = true) : Keeps t s (s.erase k) := by
  refine ⟨rfl, fun k' e' h => ⟨e', (mem_erase.1 h).1, rfl, rfl⟩, fun k' e h he => ?_⟩
  have hk : k' ≠ k := by
    rintro rfl; simp [hd e h] at he
  exact ⟨e, by simp [find?_erase, hk, h], rfl, rfl⟩

theorem touch (hf : s.find? k = some e) {n : Nat} :
    Keeps t s { s.update k { e with lastAccessAt := t } with hits := n } := by
  refine ⟨rfl, fun k' e' h => ?_, fun k' e'' h _ => ?_⟩
  · rcases mem_update h with ⟨h, -⟩ | ⟨rfl, rfl⟩
    · exact ⟨e', h, rfl, rfl⟩
    · exact ⟨e, mem_of_find? hf, rfl, rfl⟩
  · have hfu : ({ s.update k { e with lastAccessAt := t } with hits := n } : Store).find? k' =
        (s.update k { e with lastAccessAt := t }).find? k' := rfl
    rw [hfu]
    by_cases hk : k' = k
    · subst hk
      rw [hf] at h; cases h
      exact ⟨{ e with lastAccessAt := t }, by simp [find?_update, hf], rfl, rfl⟩
    · exact ⟨e'', by simp [find?_update, hk, h], rfl, rfl⟩

end Keeps

theorem keeps_live : Keeps t s ((live k t).run s).2 := by
  by_cases hd : ∀ e, s.find? k = some e → e.isExpired t = true
  · rw [live_run_dead hd]; exact .erase hd
  · push Not at hd
    obtain ⟨e, hf, he⟩ := hd
    rw [live_run_live hf (by simpa using he)]; exact .refl

theorem keeps_read : Keeps t s ((read k t).run s).2 := by
  by_cases hd : ∀ e, s.find? k = some e → e.isExpired t = true
  · rw [read_run_dead hd]
    exact (Keeps.erase hd).trans (.of_entries rfl rfl)
  · push Not at hd
    obtain ⟨e, hf, he⟩ := hd
    rw [read_run_live hf (by simpa using he)]; exact .touch hf

end Backplane.Cache.Store
