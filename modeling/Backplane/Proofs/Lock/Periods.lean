import Backplane.Proofs.Cache.Refinement
import Backplane.Proofs.Lock.Exclusion

/-!
# The counters of a throttle's periods

A throttling provider counts the attempts on a resource in the period of `p` milliseconds that
contains their instant, under the key `throttle:{resource}:{start}`, with an increment of the
shared cache whose time to live keeps the counter until a second past the period's end.

Three facts make the count exact. A counter reads back as the number it stores
(`Cache.Store.parseCounter_counterBytes`); the counters of two periods of a resource have
different keys (`Bucket.key_inj`); and the period containing an instant is aligned on its
length and contains it (`containing_spec`), while its counter outlives it
(`expiry_ttl_after`). On the map of live values a counter is described by `Throttle.Reads`,
and one increment adds one to it (`spec_increment_counts`), fails past the largest 64-bit
count (`spec_increment_overflow`), and changes no other key (`spec_increment_frame`).
-/

namespace Backplane.Cache.Store

/-! ## Counters as stored -/

theorem toList_toByteArray (l : List UInt8) : l.toByteArray.toList = l := by
  simp only [ByteArray.toList, Lock.byteArray_toList_loop, List.reverse_nil, List.nil_append,
    List.drop_zero, List.data_toByteArray, List.toList_toArray]

theorem isDigit_iff {c : Char} :
    c.isDigit = true ↔ 48 ≤ c.val.toNat ∧ c.val.toNat ≤ 57 := by
  simp [Char.isDigit, UInt32.le_iff_toNat_le]

theorem utf8EncodeChar_digit {c : Char} (h : c.isDigit = true) :
    String.utf8EncodeChar c = [c.val.toUInt8] := by
  apply String.utf8EncodeChar_eq_singleton
  rw [Char.utf8Size_eq_one_iff, UInt32.le_iff_toNat_le]
  have := (isDigit_iff.1 h).2
  simp only [UInt32.reduceToNat]
  omega

theorem flatMap_utf8EncodeChar_digits {l : List Char} (h : ∀ c ∈ l, c.isDigit = true) :
    l.flatMap String.utf8EncodeChar = l.map fun c => c.val.toUInt8 := by
  induction l with
  | nil => rfl
  | cons c l ih =>
    rw [List.flatMap_cons, utf8EncodeChar_digit (h c (by simp)), ih fun d hd => h d (by simp [hd])]
    rfl

theorem counterBytes_natCast (n : Nat) :
    counterBytes n = (Nat.toDigits 10 n).map fun c => c.val.toUInt8 := by
  have hr : toString (n : Int) = String.ofList (Nat.toDigits 10 n) := by
    rw [Int.toString_eq_repr, Int.repr_eq_if, if_pos (Int.natCast_nonneg n), Int.toNat_natCast]
    rfl
  rw [counterBytes, hr, String.toUTF8_eq_toByteArray, String.toByteArray_ofList, List.utf8Encode,
    toList_toByteArray]
  exact flatMap_utf8EncodeChar_digits fun c hc =>
    Nat.isDigit_of_mem_toDigits (by decide) (by decide) hc

theorem digits_foldl {l : List Char} (h : ∀ c ∈ l, c.isDigit = true) (init : Nat) :
    (l.map fun c => c.val.toUInt8).foldl (fun acc d => acc.bind fun n =>
      if 48 ≤ d && d ≤ 57 then some (n * 10 + (d.toNat - 48)) else none) (some init) =
      some (Nat.ofDigitChars 10 l init) := by
  induction l generalizing init with
  | nil => rfl
  | cons c l ih =>
    have hc := isDigit_iff.1 (h c (by simp))
    have hv : c.val.toUInt8.toNat = c.val.toNat := by
      rw [UInt32.toNat_toUInt8]
      exact Nat.mod_eq_of_lt (by omega)
    have hb : (48 ≤ c.val.toUInt8 && c.val.toUInt8 ≤ 57) = true := by
      simp only [UInt8.le_iff_toNat_le, hv, Bool.and_eq_true, decide_eq_true_eq]
      exact ⟨hc.1, hc.2⟩
    rw [List.map_cons, List.foldl_cons, Option.bind_some, if_pos hb,
      ih (fun d hd => h d (by simp [hd])), Nat.ofDigitChars_cons, hv, Nat.mul_comm]
    rfl

theorem digitBytes_ge {n : Nat} {b : UInt8}
    (hb : b ∈ (Nat.toDigits 10 n).map fun c => c.val.toUInt8) : 48 ≤ b.toNat := by
  obtain ⟨c, hc, rfl⟩ := List.mem_map.1 hb
  have h := isDigit_iff.1 (Nat.isDigit_of_mem_toDigits (by decide) (by decide) hc)
  rw [UInt32.toNat_toUInt8, Nat.mod_eq_of_lt (by omega)]
  exact h.1

theorem i64Min_le_zero : i64Min ≤ 0 := by
  have hpow : (0 : Int) ≤ Int.pow 2 63 := by decide
  unfold i64Min
  omega

theorem i64Max_pos : 0 < i64Max := by
  unfold i64Max
  decide

/-- A counter reads back as the count it stores. -/
theorem parseCounter_counterBytes {n : Nat} (hn : (n : Int) ≤ i64Max) :
    parseCounter (counterBytes n) = some (n : Int) := by
  have hd : ∀ c ∈ Nat.toDigits 10 n, c.isDigit = true :=
    fun c hc => Nat.isDigit_of_mem_toDigits (by decide) (by decide) hc
  have hv : digitsValue ((Nat.toDigits 10 n).map fun c => c.val.toUInt8) = some n := by
    unfold digitsValue
    rw [if_neg (by simp [Nat.toDigits_ne_nil]), digits_foldl hd, Nat.ofDigitChars_ten_toDigits]
  rw [counterBytes_natCast]
  unfold parseCounter
  -- the first byte is a digit, so neither sign
  split
  · rename_i ds h
    have := digitBytes_ge (h ▸ List.mem_cons_self : (45 : UInt8) ∈ _)
    simp at this
  · rename_i ds h
    have := digitBytes_ge (h ▸ List.mem_cons_self : (43 : UInt8) ∈ _)
    simp at this
  · have hmin : i64Min ≤ (n : Int) := Int.le_trans i64Min_le_zero (Int.natCast_nonneg n)
    rw [hv]
    simp [hmin, hn]

theorem isExpired_later {e : Entry} {t t' : Stamp} (h : t ≤ t') (he : e.isExpired t = true) :
    e.isExpired t' = true := by
  unfold Entry.isExpired at he ⊢
  cases hx : e.expiresAt with
  | none => simp [hx] at he
  | some u =>
    simp only [hx, decide_eq_true_eq] at he ⊢
    exact Int.le_trans he h

/-- Later, a cache reads what it read, less the values whose expiry came in between. -/
theorem view_later {s : Store} {t t' : Stamp} (h : t ≤ t') (k : String) :
    s.view t' k = (s.view t k).filter (·.liveAt t') := by
  unfold view
  cases s.find? k with
  | none => rfl
  | some e =>
    cases he : e.isExpired t with
    | true => simp [he, isExpired_later h he]
    | false =>
      simp only [Option.bind_some, he, Bool.false_eq_true, if_false, Option.filter,
        liveAt_eq_not_isExpired]
      cases e.isExpired t' <;> rfl

end Backplane.Cache.Store

namespace Backplane.Lock

/-! ## Keys of periods -/

theorem natRepr_inj {a b : Nat} (h : a.repr = b.repr) : a = b := by
  have h' := congrArg (fun s => Nat.ofDigitChars 10 s.toList 0) h
  simpa using h'

theorem natRepr_ne_minus (n : Nat) {s : String} : n.repr ≠ "-" ++ s := by
  intro h
  have hm : '-' ∈ Nat.toDigits 10 n := by
    rw [← Nat.toList_repr, h]
    simp
  have := Nat.isDigit_of_mem_toDigits (by decide) (by decide) hm
  simp at this

theorem intToString_inj {a b : Int} (h : toString a = toString b) : a = b := by
  rw [Int.toString_eq_repr, Int.toString_eq_repr, Int.repr_eq_if, Int.repr_eq_if] at h
  split at h <;> split at h
  · have := natRepr_inj h
    omega
  · exact absurd h (natRepr_ne_minus _)
  · exact absurd h.symm (natRepr_ne_minus _)
  · have := natRepr_inj ((String.append_right_inj "-").1 h)
    omega

theorem Bucket.key_inj {r : String} {a b : Bucket} (h : a.key r = b.key r) :
    a.startMs = b.startMs :=
  intToString_inj ((String.append_right_inj _).1 h)

/-! ## Periods and the clock -/

theorem millis_ofMillis (c : Int) : (Stamp.ofMillis c).millis = c := by
  simp [Stamp.millis, Stamp.ofMillis]

/-- The period containing an instant starts at a multiple of its length, at or before the
instant, and ends one length later, after it. -/
theorem containing_spec {p : Nat} (hp : 0 < p) (c : Int) :
    (Bucket.containing c p).startMs % p = 0 ∧ (Bucket.containing c p).startMs ≤ c ∧
      c < (Bucket.containing c p).endMs ∧
      (Bucket.containing c p).endMs = (Bucket.containing c p).startMs + p := by
  have hp' : (0 : Int) < p := by exact_mod_cast hp
  have h₀ := Int.emod_nonneg c (Int.ne_of_gt hp')
  have h₁ := Int.emod_lt_of_pos c hp'
  have hd : c - c % p = p * (c / p) := by rw [Int.emod_def]; omega
  refine ⟨?_, ?_, ?_, rfl⟩
  · show (c - c % p) % p = 0
    rw [hd, Int.mul_emod_right]
  · show c - c % p ≤ c
    omega
  · show c < c - c % p + p
    omega

/-- A period's counter, counted at `c` inside it, lives until a second past the period's end:
the time to live is never cut short, since a valid period is shorter than `2^63` ms. -/
theorem expiry_ttl {p : Nat} (hp : 0 < p) (hp' : p < Nat.pow 2 63) (c : Int) :
    Cache.expiry (Stamp.ofMillis c)
        (some ((Bucket.containing c p).ttl (Stamp.ofMillis c))) =
      if (Bucket.containing c p).endMs * 1000000 + 1000000000 ≤ Stamp.maxUtc.nanos then
        some ⟨(Bucket.containing c p).endMs * 1000000 + 1000000000⟩
      else none := by
  obtain ⟨-, hle, hlt, hend⟩ := containing_spec hp c
  have h63 : Nat.pow 2 63 = 9223372036854775808 := rfl
  have h64 : Nat.pow 2 64 = 18446744073709551616 := rfl
  have hrem : ((Bucket.containing c p).remaining c : Int) = (Bucket.containing c p).endMs - c := by
    unfold Bucket.remaining
    omega
  have hsum : (Duration.ofMillis ((Bucket.containing c p).remaining c)).nanos +
      (Duration.ofSecs 1).nanos ≤ Duration.max.nanos := by
    simp only [Duration.ofMillis, Duration.ofSecs, Duration.max, Duration.nanosPerMilli,
      Duration.nanosPerSec]
    omega
  have httl : ((Bucket.containing c p).ttl (Stamp.ofMillis c)).nanos =
      ((Bucket.containing c p).remaining c) * 1000000 + 1000000000 := by
    unfold Bucket.ttl Duration.saturatingAdd
    rw [millis_ofMillis]
    change min _ _ = _
    rw [Nat.min_eq_left hsum]
    rfl
  unfold Cache.expiry Stamp.addDuration?
  have hx : (Stamp.ofMillis c).nanos +
      (((Bucket.containing c p).remaining c * 1000000 + 1000000000 : Nat) : Int) =
      (Bucket.containing c p).endMs * 1000000 + 1000000000 := by
    simp only [Stamp.ofMillis, Nat.cast_add, Nat.cast_mul, hrem]
    omega
  simp only [Option.bind_some, httl, hx]

/-- So a period's counter is live until past the period's end. -/
theorem expiry_ttl_after {p : Nat} (hp : 0 < p) (hp' : p < Nat.pow 2 63) (c : Int) {y : Stamp}
    (hy : Cache.expiry (Stamp.ofMillis c)
      (some ((Bucket.containing c p).ttl (Stamp.ofMillis c))) = some y) :
    (Bucket.containing c p).endMs * 1000000 < y.nanos := by
  rw [expiry_ttl hp hp'] at hy
  split at hy
  · cases hy
    show _ < (Bucket.containing c p).endMs * 1000000 + 1000000000
    omega
  · cases hy

end Backplane.Lock

namespace Backplane.Lock.Throttle

open Cache Cache.Store

/-! ## A period's counter -/

/-- What a period's counter key reads before the period ends, after `n` counted attempts:
nothing before the first, then the count, with an expiry past the period's end. -/
def Reads (endMs : Int) (n : Nat) (v : Option Value) : Prop :=
  if n = 0 then v = none
  else ∃ x, v = some ⟨counterBytes n, x⟩ ∧ ∀ y, x = some y → endMs * 1000000 < y.nanos

theorem liveAt_before {endMs : Int} {t : Stamp} (ht : t.nanos < endMs * 1000000) {x : Option Stamp}
    (hx : ∀ y, x = some y → endMs * 1000000 < y.nanos) (v : Bytes) :
    (⟨v, x⟩ : Value).liveAt t = true := by
  unfold Value.liveAt
  cases x with
  | none => rfl
  | some y => exact decide_eq_true (Int.lt_trans ht (hx y rfl))

/-- A counter that reads `n` still does at any instant before its period's end. -/
theorem Reads.later {endMs : Int} {n : Nat} {v : Option Value} (h : Reads endMs n v) {t : Stamp}
    (ht : t.nanos < endMs * 1000000) : Reads endMs n (v.filter (·.liveAt t)) := by
  unfold Reads at h ⊢
  by_cases h0 : n = 0
  · rw [if_pos h0] at h ⊢
    rw [h]
    rfl
  · rw [if_neg h0] at h ⊢
    obtain ⟨x, rfl, hx⟩ := h
    refine ⟨x, ?_, hx⟩
    simp [Option.filter, liveAt_before ht hx]

section increment

variable {m : TtlMap} {K : String} {t : Stamp} {d : Duration} {endMs : Int} {n : Nat}

theorem spec_increment_frame {k : String} (hk : k ≠ K) :
    (Call.spec t m (.increment K 1 (some d))).2 k = m k := by
  have hwrite : ∀ v : Value, m.write K v t k = m k := by
    intro v
    simp [TtlMap.write, hk]
  simp only [Call.spec]
  split
  · split
    · rfl
    · split
      · rfl
      · exact hwrite _
  · exact hwrite _

/-- Counting one more attempt before the period's end, below the largest 64-bit count: the
first attempt finds no counter and stores 1, a later one finds `n` and stores `n + 1`, until
past the period's end. -/
theorem spec_increment_counts (hlt : (n : Int) < i64Max) (hr : Reads endMs n (m K))
    (ht : t.nanos < endMs * 1000000)
    (hx : ∀ y, expiry t (some d) = some y → endMs * 1000000 < y.nanos) :
    (Call.spec t m (.increment K 1 (some d))).1 = .counter (.ok (n + 1)) ∧
      Reads endMs (n + 1) ((Call.spec t m (.increment K 1 (some d))).2 K) := by
  have hstored : ∀ c : Nat, Reads endMs (c + 1)
      (m.write K ⟨counterBytes ((c : Int) + 1), expiry t (some d)⟩ t K) := by
    intro c
    simp only [Reads, Nat.add_one_ne_zero, if_false, TtlMap.write, if_true,
      liveAt_before ht hx]
    exact ⟨_, by simp, hx⟩
  unfold Reads at hr
  by_cases h0 : n = 0
  · subst h0
    rw [if_pos rfl] at hr
    simp only [Call.spec, hr]
    exact ⟨by simp, by simpa using hstored 0⟩
  · rw [if_neg h0] at hr
    obtain ⟨x, hm, -⟩ := hr
    have hin : ¬ ((n : Int) + 1 < i64Min ∨ i64Max < n + 1) := by
      have := i64Min_le_zero
      omega
    simp only [Call.spec, hm, parseCounter_counterBytes hlt.le, if_neg hin, Option.isSome_some,
      if_true]
    exact ⟨trivial, hstored n⟩

theorem spec_increment_overflow (hmax : (n : Int) = i64Max) (hr : Reads endMs n (m K)) :
    Call.spec t m (.increment K 1 (some d)) = (.counter (.error .overflow), m) := by
  have h0 : n ≠ 0 := by
    have := i64Max_pos
    omega
  unfold Reads at hr
  rw [if_neg h0] at hr
  obtain ⟨x, hm, -⟩ := hr
  have hout : (n : Int) + 1 < i64Min ∨ i64Max < n + 1 := Or.inr (by omega)
  simp only [Call.spec, hm, parseCounter_counterBytes hmax.le, if_pos hout]

end increment

/-- Counting at `t` on an unbounded cache does to what the cache reads what the specification
of an increment does. -/
theorem count_run {s : Store} (hu : s.maxItems = none) (b : Bucket) (r : String) (t : Stamp) :
    ((b.count r t).run s).2.view t =
        (Call.spec t (s.view t) (.increment (b.key r) 1 (some (b.ttl t)))).2 ∧
      Answer.counter ((b.count r t).run s).1 =
        (Call.spec t (s.view t) (.increment (b.key r) 1 (some (b.ttl t)))).1.addCount 0 :=
  refines_increment hu

theorem count_maxItems {s : Store} (hu : s.maxItems = none) (b : Bucket) (r : String)
    (t : Stamp) : ((b.count r t).run s).2.maxItems = none := by
  unfold Bucket.count
  rcases live_or_dead s (b.key r) t with ⟨e, hf, he⟩ | hd
  · rw [increment_run_live hf he]
    split
    · exact hu
    · split
      · exact hu
      · exact hu
  · rw [increment_run_dead hd hu]
    exact hu

end Backplane.Lock.Throttle
