import Backplane.Proofs.Lock.Periods

/-!
# The arithmetic of a throttle's periods

A throttle cuts time into periods of `p` milliseconds aligned on the epoch: the period
containing the instant `c` starts at `c - c % p` (a Euclidean remainder, never negative) and
ends `p` later. Its attempts are counted under `throttle:{resource}:{start}`.

`bucket_arithmetic` says that for every instant of the calendar from the epoch on and every
period a 64-bit count of milliseconds holds, the period containing the instant is the one
`Bucket.IsPeriodOf` describes: aligned, around the instant, with both ends in the 64-bit range
(so the sums of the code do not overflow, even for a period longer than the calendar), at most
`p` milliseconds left, and followed by a period that starts at its end. The key of a period
tells the resource and the start apart whatever colons the resource holds
(`Bucket.key_eq_iff`): the start is written in decimal, which has no colon, so the last colon
of a key is the one before the start.
-/

namespace Backplane.Lock

open Cache.Store

/-! ## Keys -/

theorem colon_notMem_natRepr (n : Nat) : ':' ∉ n.repr.toList := by
  intro h
  rw [Nat.toList_repr] at h
  have := Nat.isDigit_of_mem_toDigits (by decide) (by decide) h
  simp at this

theorem colon_notMem_toString (i : Int) : ':' ∉ (toString i).toList := by
  rw [Int.toString_eq_repr, Int.repr_eq_if]
  split
  · exact colon_notMem_natRepr _
  · simpa [String.toList_append] using colon_notMem_natRepr _

/-- Two texts cut at a separator that their tails do not hold: the cut is the last separator,
so heads and tails agree. -/
theorem append_sep_inj {l l' ds ds' : List Char} {c : Char} (hd : c ∉ ds) (hd' : c ∉ ds')
    (h : l ++ c :: ds = l' ++ c :: ds') : l = l' ∧ ds = ds' := by
  -- read backwards, the tail is what comes before the first separator
  have ht : ∀ {x y : List Char}, c ∉ y →
      (x ++ c :: y).reverse.takeWhile (· != c) = y.reverse := by
    intro x y hy
    rw [List.reverse_append, List.reverse_cons, List.append_assoc, List.takeWhile_append_of_pos]
    · simp
    · intro a ha
      simp only [bne_iff_ne, ne_eq]
      rintro rfl
      exact hy (List.mem_reverse.1 ha)
  have hr := congrArg (fun x : List Char => x.reverse.takeWhile (· != c)) h
  simp only [ht hd, ht hd', List.reverse_inj] at hr
  subst hr
  exact ⟨List.append_inj_left' h (by simp), rfl⟩

/-- Two periods count under one key exactly when they are of one resource and start
together, for every resource, colons included. -/
theorem Bucket.key_eq_iff {a b : Bucket} {r r' : String} :
    a.key r = b.key r' ↔ r = r' ∧ a.startMs = b.startMs := by
  constructor
  · intro h
    have hc : ":".toList = [':'] := by decide
    simp only [Bucket.key, String.append_assoc, ← String.toList_inj, String.toList_append,
      List.append_cancel_left_eq, hc, List.singleton_append] at h
    obtain ⟨h₁, h₂⟩ := append_sep_inj (colon_notMem_toString _) (colon_notMem_toString _) h
    exact ⟨String.toList_inj.1 h₁, intToString_inj (String.toList_inj.1 h₂)⟩
  · rintro ⟨rfl, h⟩
    simp [Bucket.key, h]

/-! ## Periods -/

/-- `b` is the period of `p` milliseconds that contains the instant `c`, as the throttle
computes it in 64-bit integers: aligned on `p`, around `c`, both ends in the 64-bit range,
at most `p` milliseconds left at `c`, and followed by the period that starts at its end. -/
structure Bucket.IsPeriodOf (b : Bucket) (c : Int) (p : Nat) : Prop where
  aligned : b.startMs % p = 0
  start_le : b.startMs ≤ c
  lt_end : c < b.endMs
  end_eq : b.endMs = b.startMs + p
  in_i64 : 0 ≤ b.startMs ∧ b.endMs ≤ i64Max
  remaining_eq : (b.remaining c : Int) = b.endMs - c
  remaining_le : b.remaining c ≤ p
  next_start : (Bucket.containing b.endMs p).startMs = b.endMs

theorem maxUtc_millis_lt : Stamp.maxUtc.millis < Int.pow 2 62 := by decide

theorem containing_start_nonneg {c : Int} {p : Nat} (hp : 0 < p) (hc : 0 ≤ c) :
    0 ≤ (Bucket.containing c p).startMs := by
  have hp' : (0 : Int) < p := by exact_mod_cast hp
  show 0 ≤ c - c % p
  have := Int.emod_lt_of_pos c hp'
  by_cases hlt : c < p
  · rw [Int.emod_eq_of_lt hc hlt]
    omega
  · omega

/-- A period of the calendar ends in the 64-bit range: before one period has passed it is
the first, which ends at `p`; later it ends before twice the instant. -/
theorem containing_end_le {c : Int} {p : Nat} (hp : 0 < p) (hc₀ : 0 ≤ c)
    (hc : c ≤ Stamp.maxUtc.millis) (hpm : (p : Int) ≤ i64Max) :
    (Bucket.containing c p).endMs ≤ i64Max := by
  obtain ⟨-, hle, -, hend⟩ := containing_spec hp c
  have hm := maxUtc_millis_lt
  have h62 : Int.pow 2 62 = 4611686018427387904 := rfl
  have h63 : i64Max = 9223372036854775807 := rfl
  by_cases hlt : c < p
  · have h0 : (Bucket.containing c p).startMs = 0 := by
      show c - c % p = 0
      rw [Int.emod_eq_of_lt hc₀ hlt]
      omega
    omega
  · omega

theorem containing_end_start {c : Int} {p : Nat} (hp : 0 < p) :
    (Bucket.containing (Bucket.containing c p).endMs p).startMs =
      (Bucket.containing c p).endMs := by
  obtain ⟨hmod, -, -, hend⟩ := containing_spec hp c
  show (Bucket.containing c p).endMs - (Bucket.containing c p).endMs % p = _
  rw [hend, Int.add_emod_right, hmod, Int.sub_zero]

theorem containing_remaining {c : Int} {p : Nat} (hp : 0 < p) :
    ((Bucket.containing c p).remaining c : Int) = (Bucket.containing c p).endMs - c ∧
      (Bucket.containing c p).remaining c ≤ p := by
  obtain ⟨-, hle, hlt, hend⟩ := containing_spec hp c
  unfold Bucket.remaining
  omega

/-- Bucket arithmetic. For every instant `c` of the calendar from the epoch on, in
milliseconds, and every period of `p` milliseconds from one to the largest 64-bit count, the
period the throttle computes for `c` is the period of `p` containing `c`, with no 64-bit
overflow; and the keys of periods are the same exactly for the same resource and start. -/
theorem bucket_arithmetic {c : Int} {p : Nat} (hc₀ : 0 ≤ c) (hc : c ≤ Stamp.maxUtc.millis)
    (hp : 0 < p) (hpm : (p : Int) ≤ i64Max) :
    (Bucket.containing c p).IsPeriodOf c p ∧
      ∀ (a b : Bucket) (r r' : String),
        a.key r = b.key r' ↔ r = r' ∧ a.startMs = b.startMs := by
  obtain ⟨hmod, hle, hlt, hend⟩ := containing_spec hp c
  obtain ⟨hrem, hremle⟩ := containing_remaining hp (c := c)
  refine ⟨⟨hmod, hle, hlt, hend, ⟨containing_start_nonneg hp hc₀, ?_⟩, hrem, hremle,
    containing_end_start hp⟩, fun _ _ _ _ => Bucket.key_eq_iff⟩
  exact containing_end_le hp hc₀ hc hpm

/-- At the last instant of the calendar, with the longest period. -/
theorem bucket_arithmetic_longest :
    (0 : Int) ≤ Stamp.maxUtc.millis ∧ Stamp.maxUtc.millis ≤ Stamp.maxUtc.millis ∧
      0 < i64Max.toNat ∧ (i64Max.toNat : Int) ≤ i64Max ∧
      (Bucket.containing Stamp.maxUtc.millis i64Max.toNat).IsPeriodOf Stamp.maxUtc.millis
        i64Max.toNat ∧
      ∀ (a b : Bucket) (r r' : String),
        a.key r = b.key r' ↔ r = r' ∧ a.startMs = b.startMs := by
  have h₀ : (0 : Int) ≤ Stamp.maxUtc.millis := by decide
  have hp : 0 < i64Max.toNat := by decide
  have hpm : (i64Max.toNat : Int) ≤ i64Max := by decide
  exact ⟨h₀, Int.le_refl _, hp, hpm, bucket_arithmetic h₀ (Int.le_refl _) hp hpm⟩

/-- The period of three seconds containing 10.5 s starts at 9 s, with 1.5 s left. -/
example : Bucket.containing 10500 3000 = ⟨9000, 12000⟩ ∧
    (Bucket.containing 10500 3000).remaining 10500 = 1500 := by
  decide

end Backplane.Lock
