/-!
# Shortest decimal text of a binary64 value

A finite binary64 value `v = m · 2^q` is read back from every decimal in its rounding
interval: the reals nearer to `v` than to either neighbour, the ends included when `m` is
even. The shortest text is the decimal with the fewest significant digits in that interval;
of two with as few, the nearer to `v`, and of two as near, the one with an even last digit.

All comparisons are exact, on natural numbers: the interval's ends and `v` are fractions
with a power of two below, the candidates `c · 10^k` are compared after clearing both
denominators.

Two written forms use these digits. In a refusal the digits are written out in full, never
with an exponent, and `.0` is added when no point shows. In a document the point goes where
the digits fall when the value lies in `[10^-5, 10^16)`, with `.0` after a whole number;
otherwise the form is scientific, `d.ddde±x`, the sign of the exponent always shown.
-/

namespace Backplane.Shortest

/-- A value `num / 2^den`, with `num` and the power of two natural. -/
structure Dyadic where
  num : Nat
  den : Nat

/-- Compare `c · 10^k` with a dyadic fraction: `lt`, `eq` or `gt`. -/
def compareScaled (c : Nat) (k : Int) (x : Dyadic) : Ordering :=
  let lhs := if k ≥ 0 then c * Nat.pow 10 k.toNat * Nat.pow 2 x.den else c * Nat.pow 2 x.den
  let rhs := if k ≥ 0 then x.num else x.num * Nat.pow 10 k.natAbs
  compare lhs rhs

/-- The exponent `E` with `10^E ≤ x < 10^(E+1)`, for a positive `x`. -/
def decimalExponent (x : Dyadic) : Int :=
  let whole := x.num / Nat.pow 2 x.den
  if whole > 0 then (toString whole).length - 1
  else
    -- the first power of ten that brings `x` to at least one
    let rec up : Nat → Nat → Int
      | 0, _ => -400
      | fuel + 1, e =>
        if x.num * Nat.pow 10 e ≥ Nat.pow 2 x.den then -(e : Int) else up fuel (e + 1)
    up 400 1

/-- `⌊x / 10^k⌋`. -/
def floorScaled (x : Dyadic) (k : Int) : Nat :=
  if k ≥ 0 then x.num / (Nat.pow 2 x.den * Nat.pow 10 k.toNat) else x.num * Nat.pow 10 k.natAbs / Nat.pow 2 x.den

/-- Whether `c · 10^k` lies in the interval from `lo` to `hi`, the ends counted when `closed`. -/
def inside (closed : Bool) (lo hi : Dyadic) (c : Nat) (k : Int) : Bool :=
  let a := compareScaled c k lo
  let b := compareScaled c k hi
  if closed then a != .lt && b != .gt else a == .gt && b == .lt

/-- The distance between `c · 10^k` and `v`, scaled by a common positive factor. -/
def distance (v : Dyadic) (c : Nat) (k : Int) : Nat :=
  let lhs := if k ≥ 0 then c * Nat.pow 10 k.toNat * Nat.pow 2 v.den else c * Nat.pow 2 v.den
  let rhs := if k ≥ 0 then v.num else v.num * Nat.pow 10 k.natAbs
  if lhs ≥ rhs then lhs - rhs else rhs - lhs

/-- Try `n` significant digits, then more: the digits and exponent of the first hit. -/
def search (closed : Bool) (lo v hi : Dyadic) (e : Int) : Nat → Nat → Nat × Int
  | 0, _ => (floorScaled v 0, 0)
  | fuel + 1, n =>
    let k := e - n + 1
    let c := floorScaled v k
    let a := inside closed lo hi c k
    let b := inside closed lo hi (c + 1) k
    if a && b then
      let da := distance v c k
      let db := distance v (c + 1) k
      if da < db then (c, k) else if db < da then (c + 1, k)
      else if c % 2 == 0 then (c, k) else (c + 1, k)
    else if a then (c, k)
    else if b then (c + 1, k)
    else search closed lo v hi e fuel (n + 1)

/-- Digits without trailing zeros, the exponent raised to match. -/
def trim : Nat → Nat → Int → Nat × Int
  | 0, c, k => (c, k)
  | fuel + 1, c, k => if c > 0 && c % 10 == 0 then trim fuel (c / 10) (k + 1) else (c, k)

/-- The shortest digits `c` and exponent `k` with `c · 10^k` reading back as the finite,
nonzero value of sign-free bits `bits`. -/
def digitsOfBits (bits : UInt64) : Nat × Int :=
  let mant := (bits &&& 0xFFFFFFFFFFFFF).toNat
  let expBits := ((bits >>> 52) &&& 0x7FF).toNat
  let (m, q) : Nat × Int :=
    if expBits == 0 then (mant, -1074) else (mant + Nat.pow 2 52, (expBits : Int) - 1075)
  -- everything in units of 2^(q-2)
  let shift := q - 2
  let mk (x : Nat) : Dyadic :=
    if shift ≥ 0 then ⟨x * Nat.pow 2 shift.toNat, 0⟩ else ⟨x, shift.natAbs⟩
  let v := mk (4 * m)
  let hi := mk (4 * m + 2)
  let lo := if mant == 0 && expBits > 1 then mk (4 * m - 1) else mk (4 * m - 2)
  let (c, k) := search (m % 2 == 0) lo v hi (decimalExponent v) 20 1
  trim 20 c k

def zeros (n : Nat) : String := String.ofList (List.replicate n '0')

/-- The digits `ds` times `10^k` written out in full: the point inside the digits or before
them, or trailing zeros after them, and never an exponent. -/
def positional (ds : String) (k : Int) : String :=
  let kk : Int := ds.length + k
  if 0 ≤ k then ds ++ zeros k.toNat
  else if 0 < kk then
    String.ofList (ds.toList.take kk.toNat) ++ "." ++ String.ofList (ds.toList.drop kk.toNat)
  else "0." ++ zeros kk.natAbs ++ ds

/-- The shortest digits and exponent of a finite nonzero value, without its sign; `none` for
zero, an infinity or NaN. -/
def parts (f : Float) : Option (String × Int) :=
  let body := f.toBits &&& 0x7FFFFFFFFFFFFFFF
  if body == 0 || f.isNaN || f.isInf then none
  else
    let (c, k) := digitsOfBits body
    some (toString c, k)

/-- The sign of a value as text: a minus for a negative value, negative zero included. -/
def signText (f : Float) : String := if f.toBits >>> 63 == 1 then "-" else ""

/-- The text of a binary64 value in a refusal: its shortest digits written out in full, never
with an exponent, and `.0` added when no point shows. -/
def floatText (f : Float) : String :=
  if f.isNaN then "NaN"
  else if f.isInf then signText f ++ "inf"
  else
    let body := match parts f with
      | some (ds, k) => positional ds k
      | none => "0"
    let text := signText f ++ body
    if text.toList.contains '.' then text else text ++ ".0"

/-- The text of a binary64 value in a JSON document: its shortest digits written out in full,
with `.0` after a whole number, when the value lies in `[10^-5, 10^16)`; otherwise
`d.ddde±x`, the sign of the exponent always shown. -/
def jsonText (f : Float) : String :=
  match parts f with
  | none => signText f ++ "0.0"
  | some (ds, k) =>
    let len : Int := ds.length
    let kk := len + k
    let expText (e : Int) : String := if e < 0 then "e" ++ toString e else "e+" ++ toString e
    let body :=
      if 0 ≤ k && kk ≤ 16 then ds ++ zeros k.toNat ++ ".0"
      else if -5 < kk && kk ≤ 16 then positional ds k
      else if len == 1 then ds ++ expText (kk - 1)
      else String.ofList (ds.toList.take 1) ++ "." ++ String.ofList (ds.toList.drop 1) ++
        expText (kk - 1)
    signText f ++ body

end Backplane.Shortest
