import Mathlib.Data.Nat.Digits.Lemmas
import Backplane.Proofs.Lock.Periods
import Backplane.Proofs.Cache.Eviction

/-!
# Counters

A cache keeps a counter as the decimal text of a 64-bit integer; an increment reads the live text,
adds to it and writes the sum back. This module proves the counter's law.

* The reader takes exactly the texts of the grammar `I64Text`: an optional `+` or `-`, then one
  decimal digit or more, with a value in the 64-bit range (`parseCounter_eq_some_iff`). Every
  64-bit integer, the least one included, reads back from the text it is written as
  (`parseCounter_counterBytes_of_mem`).
* One increment of a live counter adds to it, or fails with an overflow and changes nothing
  (`increment_run_adds`, `increment_run_overflow`); an absent key starts at the amount
  (`increment_run_absent`); a live value that is no such text is not a number
  (`increment_run_notANumber`).
* Increments of one key, one after the other, answer the running sums
  (`runAll_increments_absent`) until the first sum that leaves the range
  (`runAll_increments_absent_overflow`), as long as the counter never expires between two of
  them (`Steady`).
-/

namespace Backplane.Cache.Store

/-! ## Texts of 64-bit integers -/

/-- An ASCII decimal digit. -/
def IsDigitByte (d : UInt8) : Prop := 48 ≤ d.toNat ∧ d.toNat ≤ 57

instance : DecidablePred IsDigitByte := fun d =>
  inferInstanceAs (Decidable (48 ≤ d.toNat ∧ d.toNat ≤ 57))

/-- The value of decimal digits, the most significant first. -/
def decimalValue (ds : List UInt8) : Nat := Nat.ofDigits 10 (ds.reverse.map fun d => d.toNat - 48)

/-- The texts the integer reader takes as a 64-bit integer, with their values: one decimal digit
or more, leading zeros allowed, after an optional `+` or `-`, within the 64-bit range. -/
inductive I64Text : Bytes → Int → Prop
  | plain {ds : List UInt8} (hne : ds ≠ []) (hd : ∀ d ∈ ds, IsDigitByte d)
      (hr : (decimalValue ds : Int) ≤ i64Max) : I64Text ds (decimalValue ds)
  | plus {ds : List UInt8} (hne : ds ≠ []) (hd : ∀ d ∈ ds, IsDigitByte d)
      (hr : (decimalValue ds : Int) ≤ i64Max) : I64Text (43 :: ds) (decimalValue ds)
  | minus {ds : List UInt8} (hne : ds ≠ []) (hd : ∀ d ∈ ds, IsDigitByte d)
      (hr : i64Min ≤ -(decimalValue ds : Int)) : I64Text (45 :: ds) (-(decimalValue ds : Int))

theorem digitStep_eq (d : UInt8) (n : Nat) :
    (if 48 ≤ d && d ≤ 57 then some (n * 10 + (d.toNat - 48)) else none) =
      if IsDigitByte d then some (n * 10 + (d.toNat - 48)) else none := by
  simp only [IsDigitByte, UInt8.le_iff_toNat_le, Bool.and_eq_true, decide_eq_true_eq]
  rfl

theorem decimalValue_cons (d : UInt8) (ds : List UInt8) :
    decimalValue (d :: ds) = decimalValue ds + 10 ^ ds.length * (d.toNat - 48) := by
  simp only [decimalValue, List.reverse_cons, List.map_append, List.map_cons, List.map_nil]
  rw [Nat.ofDigits_append, Nat.ofDigits_singleton, List.length_map, List.length_reverse]

theorem digitsFold_none (ds : List UInt8) :
    ds.foldl (fun acc d => acc.bind fun n =>
      if 48 ≤ d && d ≤ 57 then some (n * 10 + (d.toNat - 48)) else none) none = none := by
  induction ds with
  | nil => rfl
  | cons d ds ih => exact ih

/-- The reader's loop over digits, from the value `init`, shifts it left past them and adds
their value. -/
theorem digitsFold_digits {ds : List UInt8} (hd : ∀ d ∈ ds, IsDigitByte d) (init : Nat) :
    ds.foldl (fun acc d => acc.bind fun n =>
      if 48 ≤ d && d ≤ 57 then some (n * 10 + (d.toNat - 48)) else none) (some init) =
      some (init * 10 ^ ds.length + decimalValue ds) := by
  induction ds generalizing init with
  | nil => simp [decimalValue]
  | cons d ds ih =>
    rw [List.foldl_cons, Option.bind_some, digitStep_eq, if_pos (hd d (by simp)),
      ih (fun d' h => hd d' (by simp [h])), decimalValue_cons, List.length_cons]
    congr 1
    ring

theorem digitsFold_nonDigit {ds : List UInt8} (hd : ¬ ∀ d ∈ ds, IsDigitByte d) (init : Nat) :
    ds.foldl (fun acc d => acc.bind fun n =>
      if 48 ≤ d && d ≤ 57 then some (n * 10 + (d.toNat - 48)) else none) (some init) = none := by
  induction ds generalizing init with
  | nil => simp at hd
  | cons d ds ih =>
    rw [List.foldl_cons, Option.bind_some, digitStep_eq]
    by_cases hd' : IsDigitByte d
    · rw [if_pos hd']
      exact ih (fun h => hd (List.forall_mem_cons.2 ⟨hd', h⟩)) _
    · rw [if_neg hd', digitsFold_none]

theorem digitsValue_eq_some {ds : List UInt8} {n : Nat} :
    digitsValue ds = some n ↔ ds ≠ [] ∧ (∀ d ∈ ds, IsDigitByte d) ∧ n = decimalValue ds := by
  unfold digitsValue
  by_cases he : ds = []
  · simp [he]
  · rw [if_neg (by simpa using he)]
    by_cases hd : ∀ d ∈ ds, IsDigitByte d
    · rw [digitsFold_digits hd, Nat.zero_mul, Nat.zero_add, Option.some.injEq]
      exact ⟨fun h => ⟨he, hd, h.symm⟩, fun h => h.2.2.symm⟩
    · rw [digitsFold_nonDigit hd]
      simp [hd]

theorem sign_not_digit {d : UInt8} (h : d = 43 ∨ d = 45) : ¬ IsDigitByte d := by
  rcases h with rfl | rfl <;> decide

theorem liftDigits_eq (ds : List UInt8) :
    (do let a ← digitsValue ds; pure (a : Int) : Option Int) = (digitsValue ds).map Nat.cast := by
  cases digitsValue ds <;> rfl

theorem rangeCheck_eq (i : Int) :
    (if i64Min ≤ i && i ≤ i64Max then some i else none) =
      if i64Min ≤ i ∧ i ≤ i64Max then some i else none := by
  simp only [Bool.and_eq_true, decide_eq_true_eq]

section text

variable {ds : List UInt8} (hne : ds ≠ []) (hd : ∀ d ∈ ds, IsDigitByte d)
include hne hd

theorem parseCounter_digits (hr : (decimalValue ds : Int) ≤ i64Max) :
    parseCounter ds = some (decimalValue ds) := by
  have hv : digitsValue ds = some (decimalValue ds) := digitsValue_eq_some.2 ⟨hne, hd, rfl⟩
  -- a text of digits starts with no sign, so the reader takes the unsigned branch
  obtain ⟨d, ds', rfl⟩ := List.exists_cons_of_ne_nil hne
  have hs : d ≠ 45 ∧ d ≠ 43 := by
    have := hd d (by simp)
    exact ⟨fun h => sign_not_digit (.inr h) this, fun h => sign_not_digit (.inl h) this⟩
  have hmin := i64Min_le_zero
  unfold parseCounter
  split
  · rename_i h; cases h; exact absurd rfl hs.1
  · rename_i h; cases h; exact absurd rfl hs.2
  · simp [hv, hr]
    omega

theorem parseCounter_plus (hr : (decimalValue ds : Int) ≤ i64Max) :
    parseCounter (43 :: ds) = some (decimalValue ds) := by
  have hv : digitsValue ds = some (decimalValue ds) := digitsValue_eq_some.2 ⟨hne, hd, rfl⟩
  have hmin := i64Min_le_zero
  simp [parseCounter, hv, hr]
  omega

theorem parseCounter_minus (hr : i64Min ≤ -(decimalValue ds : Int)) :
    parseCounter (45 :: ds) = some (-(decimalValue ds : Int)) := by
  have hv : digitsValue ds = some (decimalValue ds) := digitsValue_eq_some.2 ⟨hne, hd, rfl⟩
  have hmax := i64Max_pos
  simp [parseCounter, hv, hr]
  omega

end text

/-- The integer reader takes exactly the texts of 64-bit integers, with their values. -/
theorem parseCounter_eq_some_iff {b : Bytes} {i : Int} :
    parseCounter b = some i ↔ I64Text b i := by
  constructor
  · intro h
    unfold parseCounter at h
    simp only [liftDigits_eq, Option.map_map, Function.comp_def] at h
    split at h
    · rename_i ds
      obtain ⟨n, hn, hv⟩ := Option.bind_eq_some_iff.1 h
      obtain ⟨m, hm, rfl⟩ := Option.map_eq_some_iff.1 hn
      obtain ⟨hne, hd, rfl⟩ := digitsValue_eq_some.1 hm
      rw [rangeCheck_eq] at hv
      split at hv
      · cases hv; exact .minus hne hd (by omega)
      · cases hv
    · rename_i ds
      obtain ⟨n, hn, hv⟩ := Option.bind_eq_some_iff.1 h
      obtain ⟨m, hm, rfl⟩ := Option.map_eq_some_iff.1 hn
      obtain ⟨hne, hd, rfl⟩ := digitsValue_eq_some.1 hm
      rw [rangeCheck_eq] at hv
      split at hv
      · cases hv; exact .plus hne hd (by omega)
      · cases hv
    · rename_i ds h45 h43
      obtain ⟨n, hn, hv⟩ := Option.bind_eq_some_iff.1 h
      obtain ⟨m, hm, rfl⟩ := Option.map_eq_some_iff.1 hn
      obtain ⟨hne, hd, rfl⟩ := digitsValue_eq_some.1 hm
      rw [rangeCheck_eq] at hv
      split at hv
      · cases hv; exact .plain hne hd (by omega)
      · cases hv
  · intro h
    cases h with
    | plain hne hd hr => exact parseCounter_digits hne hd hr
    | plus hne hd hr => exact parseCounter_plus hne hd hr
    | minus hne hd hr => exact parseCounter_minus hne hd hr

theorem counterBytes_neg {m : Nat} (hm : 0 < m) :
    counterBytes (-(m : Int)) = 45 :: (Nat.toDigits 10 m).map fun c => c.val.toUInt8 := by
  have hr : toString (-(m : Int)) = String.ofList ('-' :: Nat.toDigits 10 m) := by
    rw [Int.toString_eq_repr, Int.repr_eq_if, if_neg (by omega), Int.neg_neg, Int.toNat_natCast,
      String.ofList_cons]
    rfl
  rw [counterBytes, hr, String.toUTF8_eq_toByteArray, String.toByteArray_ofList, List.utf8Encode,
    toList_toByteArray, List.flatMap_cons, flatMap_utf8EncodeChar_digits fun c hc =>
      Nat.isDigit_of_mem_toDigits (by decide) (by decide) hc]
  rfl

/-- The digits of a count are decimal digits, and they read back as the count. -/
theorem toDigits_text (m : Nat) :
    (Nat.toDigits 10 m).map (fun c => c.val.toUInt8) ≠ [] ∧
      (∀ d ∈ (Nat.toDigits 10 m).map (fun c => c.val.toUInt8), IsDigitByte d) ∧
      decimalValue ((Nat.toDigits 10 m).map fun c => c.val.toUInt8) = m := by
  have hd : ∀ c ∈ Nat.toDigits 10 m, c.isDigit = true :=
    fun c hc => Nat.isDigit_of_mem_toDigits (by decide) (by decide) hc
  have hv : digitsValue ((Nat.toDigits 10 m).map fun c => c.val.toUInt8) = some m := by
    unfold digitsValue
    rw [if_neg (by simp [Nat.toDigits_ne_nil]), digits_foldl hd, Nat.ofDigitChars_ten_toDigits]
  obtain ⟨hne, hdig, hm⟩ := digitsValue_eq_some.1 hv
  exact ⟨hne, hdig, hm.symm⟩

/-- Every 64-bit integer, the least one included, reads back from its decimal text. -/
theorem parseCounter_counterBytes_of_mem {i : Int} (h₁ : i64Min ≤ i) (h₂ : i ≤ i64Max) :
    parseCounter (counterBytes i) = some i := by
  by_cases hi : 0 ≤ i
  · obtain ⟨n, rfl⟩ := Int.eq_ofNat_of_zero_le hi
    exact parseCounter_counterBytes h₂
  · -- a negative integer is the negation of its magnitude, which may be one past the largest
    obtain ⟨m, hm, rfl⟩ : ∃ m : Nat, 0 < m ∧ i = -(m : Int) := ⟨i.natAbs, by omega, by omega⟩
    obtain ⟨hne, hd, hv⟩ := toDigits_text m
    rw [counterBytes_neg hm]
    have h := parseCounter_minus hne hd (by rw [hv]; exact h₁)
    rwa [hv] at h

end Backplane.Cache.Store

namespace Backplane.Cache

/-! ## Runs of increments -/

/-- A 64-bit integer. -/
def IsI64 (i : Int) : Prop := Store.i64Min ≤ i ∧ i ≤ Store.i64Max

instance : DecidablePred IsI64 := fun i =>
  inferInstanceAs (Decidable (Store.i64Min ≤ i ∧ i ≤ Store.i64Max))

/-- Increments of one key, each by its amount, with its time to live, at its instant. -/
def Call.increments (k : String) (cs : List (Int × Option Duration × Stamp)) :
    List (Call × Stamp) :=
  cs.map fun c => (.increment k c.1 c.2.1, c.2.2)

/-- No increment of a run finds its counter expired: each comes before the expiry the counter
carries when it is made, which the last call with a time to live set. -/
def Steady : Option Stamp → List (Int × Option Duration × Stamp) → Prop
  | _, [] => True
  | x, (_, ttl, now) :: cs =>
    (∀ u, x = some u → now < u) ∧ Steady (if ttl.isSome then expiry now ttl else x) cs

/-- The expiry a counter carries after increments that succeed: a call with a time to live sets
it anew, one without keeps it. -/
def carried (x : Option Stamp) : List (Int × Option Duration × Stamp) → Option Stamp
  | [] => x
  | (_, ttl, now) :: cs => carried (if ttl.isSome then expiry now ttl else x) cs

theorem steady_append {x : Option Stamp} {pre cs : List (Int × Option Duration × Stamp)} :
    Steady x (pre ++ cs) ↔ Steady x pre ∧ Steady (carried x pre) cs := by
  induction pre generalizing x with
  | nil => simp [Steady, carried]
  | cons c pre ih =>
    obtain ⟨b, ttl, t⟩ := c
    simp only [List.cons_append, Steady, carried, ih, and_assoc]

theorem foldl_mem_scanl {α β : Type} {f : β → α → β} {a : β} {l : List α} :
    l.foldl f a ∈ l.scanl f a := by
  induction l generalizing a with
  | nil => simp
  | cons c l ih => simp [List.scanl_cons, ih]

theorem scanl_eq_cons_tail {α β : Type} {f : β → α → β} {a : β} {l : List α} :
    l.scanl f a = a :: (l.scanl f a).tail := by
  cases l <;> simp [List.scanl_cons]

namespace Store

variable {s : Store} {k : String} {t : Stamp} {e : Entry} {S b : Int} {x : Option Stamp}
  {ttl : Option Duration}

/-- The key holds the decimal text of `S`, with the expiry `x`. -/
def Counts (k : String) (S : Int) (x : Option Stamp) (s : Store) : Prop :=
  ∃ e, s.find? k = some e ∧ e.value = counterBytes S ∧ e.expiresAt = x

theorem runAll_cons {c : Call × Stamp} {cs : List (Call × Stamp)} :
    (Call.runAll (c :: cs)).run s =
      (((c.1.run c.2).run s).1 :: ((Call.runAll cs).run ((c.1.run c.2).run s).2).1,
        ((Call.runAll cs).run ((c.1.run c.2).run s).2).2) := by
  simp only [Call.runAll, List.mapM_cons, StateT.run_bind]
  rfl

theorem runAll_append {cs cs' : List (Call × Stamp)} :
    (Call.runAll (cs ++ cs')).run s =
      (((Call.runAll cs).run s).1 ++ ((Call.runAll cs').run ((Call.runAll cs).run s).2).1,
        ((Call.runAll cs').run ((Call.runAll cs).run s).2).2) := by
  simp only [Call.runAll, List.mapM_append, StateT.run_bind]
  rfl

theorem find?_append_self {es : List (String × Entry)} (hk : ∀ p ∈ es, p.1 ≠ k) {s' : Store}
    (he : s'.entries = es ++ [(k, e)]) : s'.find? k = some e := by
  have hn : es.find? (·.1 == k) = none := List.find?_eq_none.2 fun p hp => by simpa using hk p hp
  simp [find?, he, List.find?_append, hn]

theorem find?_insert (hf : s.find? k = none) : ((insert k e t).run s).2.find? k = some e := by
  have hk : ∀ p ∈ s.entries, p.1 ≠ k := by
    simp only [find?, Option.map_eq_none_iff, List.find?_eq_none] at hf
    exact fun p hp h => by simpa [h] using hf p hp
  cases hm : s.maxItems with
  | none => exact find?_append_self hk (by rw [insert_run hm hf])
  | some m =>
    obtain ⟨es, vs, rest, hes, hev, -, hrun⟩ := @insert_run_bounded s k t e m hm hf
    have hsub : rest.Sublist s.entries := by
      rcases hes with rfl | rfl
      · exact hev.sublist
      · exact hev.sublist.trans List.filter_sublist
    exact find?_append_self (fun p hp => hk p (hsub.subset hp)) (by rw [hrun])

theorem isExpired_eq_false (hx : e.expiresAt = x) (hlive : ∀ u, x = some u → t < u) :
    e.isExpired t = false := by
  unfold Entry.isExpired
  cases h : e.expiresAt with
  | none => rfl
  | some u => exact decide_eq_false (Int.not_le.2 (hlive u (hx ▸ h)))

/-! ## One increment -/

section counter

variable (hc : Counts k S x s) (hlive : ∀ u, x = some u → t < u) (hS : IsI64 S)
include hc hlive hS

/-- An increment of a live counter by an amount that keeps it a 64-bit integer answers the sum,
stores its text, and takes a new expiry only with a time to live. -/
theorem increment_run_adds (ttl : Option Duration) (hT : IsI64 (S + b)) :
    ((increment k b ttl t).run s).1 = .ok (S + b) ∧
      Counts k (S + b) (if ttl.isSome then expiry t ttl else x) ((increment k b ttl t).run s).2 := by
  obtain ⟨e, hf, hv, hx⟩ := hc
  have hin : ¬ (S + b < i64Min ∨ i64Max < S + b) := by
    unfold IsI64 at hT
    omega
  rw [increment_run_live hf (isExpired_eq_false hx hlive), hv,
    parseCounter_counterBytes_of_mem hS.1 hS.2]
  simp only [if_neg hin, true_and]
  refine ⟨e.write (counterBytes (S + b)) (if ttl.isSome then expiry t ttl else e.expiresAt) t,
    ?_, rfl, ?_⟩
  · simp [find?_update, hf]
  · simp [Entry.write, hx]

theorem increment_run_overflow (ttl : Option Duration) (hT : ¬ IsI64 (S + b)) :
    (increment k b ttl t).run s = (.error .overflow, s) := by
  obtain ⟨e, hf, hv, hx⟩ := hc
  have hout : S + b < i64Min ∨ i64Max < S + b := by
    unfold IsI64 at hT
    omega
  rw [increment_run_live hf (isExpired_eq_false hx hlive), hv,
    parseCounter_counterBytes_of_mem hS.1 hS.2]
  simp only [if_pos hout]

end counter

/-- An increment of a key with no live value starts the counter at the amount, with the expiry
its time to live gives. -/
theorem increment_run_absent (b : Int) (ttl : Option Duration)
    (hd : ∀ e, s.find? k = some e → e.isExpired t = true) :
    ((increment k b ttl t).run s).1 = .ok b ∧
      Counts k b (expiry t ttl) ((increment k b ttl t).run s).2 := by
  rw [increment_run_insert hd]
  exact ⟨rfl, _, find?_insert (by simp [find?_erase]), rfl, rfl⟩

theorem increment_run_notANumber (hf : s.find? k = some e) (he : e.isExpired t = false)
    (hn : ∀ i, ¬ I64Text e.value i) : (increment k b ttl t).run s = (.error .notANumber, s) := by
  have hp : parseCounter e.value = none := by
    cases h : parseCounter e.value with
    | none => rfl
    | some i => exact absurd (parseCounter_eq_some_iff.1 h) (hn i)
  rw [increment_run_live hf he, hp]

/-! ## Increments one after the other -/

/-- Increments of a live 64-bit counter whose running sums all stay 64-bit integers, none finding
the counter expired: they answer the running sums, and the key ends with the text of the last,
under the expiry the calls with a time to live left. -/
theorem runAll_increments {cs : List (Int × Option Duration × Stamp)} (hc : Counts k S x s)
    (hsteady : Steady x cs) (hfit : ∀ T ∈ (cs.map (·.1)).scanl (· + ·) S, IsI64 T) :
    ((Call.runAll (Call.increments k cs)).run s).1 =
        ((cs.map (·.1)).scanl (· + ·) S).tail.map (.counter ∘ .ok) ∧
      Counts k ((cs.map (·.1)).foldl (· + ·) S) (carried x cs)
        ((Call.runAll (Call.increments k cs)).run s).2 := by
  -- induction on the calls, from any counter: each one adds its amount to the running sum
  induction cs generalizing S x s with
  | nil => exact ⟨rfl, hc⟩
  | cons c cs ih =>
    obtain ⟨b, ttl, t⟩ := c
    obtain ⟨hlive, hsteady⟩ := hsteady
    simp only [List.map_cons, List.scanl_cons, List.mem_cons, forall_eq_or_imp] at hfit
    obtain ⟨hS, hfit⟩ := hfit
    have hT : IsI64 (S + b) := hfit _ (by cases cs <;> simp)
    obtain ⟨h₁, hc₁⟩ := increment_run_adds hc hlive hS ttl hT
    have hrun : ((Call.increment k b ttl).run t).run s =
        (.counter (.ok (S + b)), ((increment k b ttl t).run s).2) := by
      simp only [Call.run, run_fmap, h₁]
    obtain ⟨ih₁, ih₂⟩ := ih hc₁ hsteady hfit
    simp only [Call.increments, List.map_cons] at ih₁ ih₂ ⊢
    rw [runAll_cons, hrun]
    refine ⟨?_, ih₂⟩
    dsimp only
    rw [ih₁]
    conv_rhs => rw [List.scanl_cons, List.tail_cons, scanl_eq_cons_tail, List.map_cons]
    rfl

/-- Once the running sum would leave the 64-bit range, the increment answers an overflow and
leaves the cache as the increments before it left it. -/
theorem runAll_increments_overflow {pre : List (Int × Option Duration × Stamp)}
    {c : Int × Option Duration × Stamp} (hc : Counts k S x s) (hsteady : Steady x (pre ++ [c]))
    (hfit : ∀ T ∈ (pre.map (·.1)).scanl (· + ·) S, IsI64 T)
    (hover : ¬ IsI64 ((pre.map (·.1)).foldl (· + ·) S + c.1)) :
    (Call.runAll (Call.increments k (pre ++ [c]))).run s =
      (((Call.runAll (Call.increments k pre)).run s).1 ++ [.counter (.error .overflow)],
        ((Call.runAll (Call.increments k pre)).run s).2) := by
  obtain ⟨hpre, hlast⟩ := steady_append.1 hsteady
  obtain ⟨-, hc'⟩ := runAll_increments hc hpre hfit
  obtain ⟨b, ttl, t⟩ := c
  have hlive : ∀ u, carried x pre = some u → t < u := hlast.1
  have hover' := increment_run_overflow hc' hlive (hfit _ foldl_mem_scanl) ttl hover
  simp only [Call.increments, List.map_append] at hover' ⊢
  rw [runAll_append]
  simp only [List.map_cons, List.map_nil, runAll_cons, Call.run, run_fmap, hover']
  rfl

theorem runAll_increments_cons_absent {cs : List (Int × Option Duration × Stamp)}
    (hd : ∀ e, s.find? k = some e → e.isExpired t = true) :
    (Call.runAll (Call.increments k ((b, ttl, t) :: cs))).run s =
      (.counter (.ok b) ::
          ((Call.runAll (Call.increments k cs)).run ((increment k b ttl t).run s).2).1,
        ((Call.runAll (Call.increments k cs)).run ((increment k b ttl t).run s).2).2) := by
  simp only [Call.increments, List.map_cons, runAll_cons, Call.run, run_fmap,
    (increment_run_absent b ttl hd).1]

/-- Counting from an absent key: while the running sums stay 64-bit integers and the counter
never expires in between, the increments answer the running sums and the key ends with the
text of the last. -/
theorem runAll_increments_absent {cs : List (Int × Option Duration × Stamp)}
    (hd : ∀ e, s.find? k = some e → e.isExpired t = true)
    (hsteady : Steady (expiry t ttl) cs) (hfit : ∀ T ∈ (cs.map (·.1)).scanl (· + ·) b, IsI64 T) :
    ((Call.runAll (Call.increments k ((b, ttl, t) :: cs))).run s).1 =
        ((cs.map (·.1)).scanl (· + ·) b).map (.counter ∘ .ok) ∧
      Counts k ((cs.map (·.1)).foldl (· + ·) b) (carried (expiry t ttl) cs)
        ((Call.runAll (Call.increments k ((b, ttl, t) :: cs))).run s).2 := by
  obtain ⟨-, hc⟩ := increment_run_absent b ttl hd
  obtain ⟨h₁, h₂⟩ := runAll_increments hc hsteady hfit
  rw [runAll_increments_cons_absent hd]
  refine ⟨?_, h₂⟩
  dsimp only
  rw [h₁]
  conv_rhs => rw [scanl_eq_cons_tail, List.map_cons]
  rfl

theorem runAll_increments_absent_overflow {pre : List (Int × Option Duration × Stamp)}
    {c : Int × Option Duration × Stamp} (hd : ∀ e, s.find? k = some e → e.isExpired t = true)
    (hsteady : Steady (expiry t ttl) (pre ++ [c]))
    (hfit : ∀ T ∈ (pre.map (·.1)).scanl (· + ·) b, IsI64 T)
    (hover : ¬ IsI64 ((pre.map (·.1)).foldl (· + ·) b + c.1)) :
    (Call.runAll (Call.increments k ((b, ttl, t) :: (pre ++ [c])))).run s =
      (((Call.runAll (Call.increments k ((b, ttl, t) :: pre))).run s).1 ++
          [.counter (.error .overflow)],
        ((Call.runAll (Call.increments k ((b, ttl, t) :: pre))).run s).2) := by
  obtain ⟨-, hc⟩ := increment_run_absent b ttl hd
  rw [runAll_increments_cons_absent hd, runAll_increments_cons_absent hd,
    runAll_increments_overflow hc hsteady hfit hover]
  rfl

/-- The law of the cache's counters. The integer reader takes exactly the texts of 64-bit
integers (an optional sign, then decimal digits) and reads every 64-bit integer back from its
text. Increments of a key that starts absent, with nothing else writing it and no expiry in
between, answer the running sums while these stay 64-bit integers, leaving the text of the last
one stored under the expiry the last call with a time to live set; the first increment whose sum
would leave the range answers an overflow and changes nothing; and a live value that is not such
a text is not a number, with nothing changed. -/
theorem increment_counter_law :
    (∀ (v : Bytes) (i : Int), parseCounter v = some i ↔ I64Text v i) ∧
    (∀ i, IsI64 i → parseCounter (counterBytes i) = some i) ∧
    (∀ (s : Store) (k : String) (b : Int) (ttl : Option Duration) (t : Stamp)
        (cs : List (Int × Option Duration × Stamp)),
      (∀ e, s.find? k = some e → e.isExpired t = true) → Steady (expiry t ttl) cs →
      (∀ T ∈ (cs.map (·.1)).scanl (· + ·) b, IsI64 T) →
      ((Call.runAll (Call.increments k ((b, ttl, t) :: cs))).run s).1 =
          ((cs.map (·.1)).scanl (· + ·) b).map (.counter ∘ .ok) ∧
        Counts k ((cs.map (·.1)).foldl (· + ·) b) (carried (expiry t ttl) cs)
          ((Call.runAll (Call.increments k ((b, ttl, t) :: cs))).run s).2) ∧
    (∀ (s : Store) (k : String) (b : Int) (ttl : Option Duration) (t : Stamp)
        (pre : List (Int × Option Duration × Stamp)) (c : Int × Option Duration × Stamp),
      (∀ e, s.find? k = some e → e.isExpired t = true) → Steady (expiry t ttl) (pre ++ [c]) →
      (∀ T ∈ (pre.map (·.1)).scanl (· + ·) b, IsI64 T) →
      ¬ IsI64 ((pre.map (·.1)).foldl (· + ·) b + c.1) →
      (Call.runAll (Call.increments k ((b, ttl, t) :: (pre ++ [c])))).run s =
        (((Call.runAll (Call.increments k ((b, ttl, t) :: pre))).run s).1 ++
            [.counter (.error .overflow)],
          ((Call.runAll (Call.increments k ((b, ttl, t) :: pre))).run s).2)) ∧
    (∀ (s : Store) (k : String) (e : Entry) (b : Int) (ttl : Option Duration) (t : Stamp),
      s.find? k = some e → e.isExpired t = false → (∀ i, ¬ I64Text e.value i) →
      (increment k b ttl t).run s = (.error .notANumber, s)) :=
  ⟨fun _ _ => parseCounter_eq_some_iff, fun _ hi => parseCounter_counterBytes_of_mem hi.1 hi.2,
    fun _ _ _ _ _ _ hd hsteady hfit => runAll_increments_absent hd hsteady hfit,
    fun _ _ _ _ _ _ _ hd hsteady hfit hover =>
      runAll_increments_absent_overflow hd hsteady hfit hover,
    fun _ _ _ _ _ _ hf he hn => increment_run_notANumber hf he hn⟩

/-- Counting 1 and then 4 on an empty cache answers 1 and 5 and stores `5`; adding 1 to the
largest 64-bit integer overflows. -/
theorem increment_counter_law_counts :
    (((Call.runAll (Call.increments "hits" [(1, none, ⟨0⟩), (4, none, ⟨0⟩)])).run
        (empty none)).1 = [.counter (.ok 1), .counter (.ok 5)] ∧
      Counts "hits" 5 none
        ((Call.runAll (Call.increments "hits" [(1, none, ⟨0⟩), (4, none, ⟨0⟩)])).run
          (empty none)).2) ∧
    (Call.runAll (Call.increments "c" [(i64Max, none, ⟨0⟩), (1, none, ⟨0⟩)])).run (empty none) =
      (((Call.runAll (Call.increments "c" [(i64Max, none, ⟨0⟩)])).run (empty none)).1 ++
          [.counter (.error .overflow)],
        ((Call.runAll (Call.increments "c" [(i64Max, none, ⟨0⟩)])).run (empty none)).2) := by
  have habs : ∀ k, ∀ e, (empty none).find? k = some e → e.isExpired ⟨0⟩ = true := by
    intro k e h
    simp [find?, empty] at h
  refine ⟨increment_counter_law.2.2.1 (empty none) "hits" 1 none ⟨0⟩ [(4, none, ⟨0⟩)] (habs _)
    (by simp [Steady, expiry]) (by decide), ?_⟩
  exact increment_counter_law.2.2.2.1 (empty none) "c" i64Max none ⟨0⟩ [] (1, none, ⟨0⟩) (habs _)
    (by simp [Steady, expiry]) (by decide) (by decide)

end Store

end Backplane.Cache
