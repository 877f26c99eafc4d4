/-!
# Durations

A duration is a whole number of nanoseconds, at most `Duration.max`: `2^64 - 1` seconds and
`999 999 999` nanoseconds. Arithmetic on durations either saturates at that bound or reports
that the bound was passed, as each operation says.

Durations are shown in the unit that fits them: seconds from one second up, milliseconds
from one millisecond, then microseconds, then nanoseconds; the fraction of the unit follows a
point, with trailing zeros dropped (`1.5s`, `25ms`, `0ns`).
-/

namespace Backplane

/-- A span of time in nanoseconds. -/
structure Duration where
  nanos : Nat
  deriving Repr, Inhabited, DecidableEq, Ord

namespace Duration

def nanosPerSec : Nat := 1000000000

def nanosPerMilli : Nat := 1000000

/-- The longest duration. -/
def max : Duration := ⟨(Nat.pow 2 64 - 1) * nanosPerSec + (nanosPerSec - 1)⟩

def zero : Duration := ⟨0⟩

instance : LE Duration := ⟨fun a b => a.nanos ≤ b.nanos⟩
instance : LT Duration := ⟨fun a b => a.nanos < b.nanos⟩
instance (a b : Duration) : Decidable (a ≤ b) := inferInstanceAs (Decidable (a.nanos ≤ b.nanos))
instance (a b : Duration) : Decidable (a < b) := inferInstanceAs (Decidable (a.nanos < b.nanos))

def ofMillis (ms : Nat) : Duration := ⟨ms * nanosPerMilli⟩

def ofSecs (s : Nat) : Duration := ⟨s * nanosPerSec⟩

/-- The whole milliseconds of a duration, the rest dropped. -/
def millis (d : Duration) : Nat := d.nanos / nanosPerMilli

def secs (d : Duration) : Nat := d.nanos / nanosPerSec

def isZero (d : Duration) : Bool := d.nanos == 0

def min (a b : Duration) : Duration := if a.nanos ≤ b.nanos then a else b

def maxOf (a b : Duration) : Duration := if a.nanos ≤ b.nanos then b else a

/-- A sum that stops at the longest duration. -/
def saturatingAdd (a b : Duration) : Duration := ⟨Nat.min (a.nanos + b.nanos) max.nanos⟩

/-- A sum, or `none` past the longest duration. -/
def checkedAdd (a b : Duration) : Option Duration :=
  if a.nanos + b.nanos ≤ max.nanos then some ⟨a.nanos + b.nanos⟩ else none

/-- A difference, or zero when `b` is longer. -/
def saturatingSub (a b : Duration) : Duration := ⟨a.nanos - b.nanos⟩

/-- A product with a count, stopping at the longest duration. -/
def saturatingMul (a : Duration) (k : Nat) : Duration := ⟨Nat.min (a.nanos * k) max.nanos⟩

/-- Half a duration, the odd nanosecond dropped. -/
def half (d : Duration) : Duration := ⟨d.nanos / 2⟩

/-- The decimal digits of a fraction `r / (10 · divisor)` of a unit, the trailing zeros
dropped; at most as many digits as the divisor has. -/
def fractionDigits : Nat → Nat → Nat → List Char
  | 0, _, _ => []
  | fuel + 1, r, divisor =>
    if r = 0 || divisor = 0 then []
    else Char.ofNat (48 + r / divisor) :: fractionDigits fuel (r % divisor) (divisor / 10)

/-- A whole part, a fraction of the unit below it, and the unit's name. -/
def decimal (whole r divisor : Nat) (unit : String) : String :=
  let digits := fractionDigits 10 r divisor
  toString whole ++ (if digits.isEmpty then "" else "." ++ String.ofList digits) ++ unit

/-- A duration in the unit that fits it, with its fraction. -/
def text (d : Duration) : String :=
  let s := d.nanos / nanosPerSec
  let n := d.nanos % nanosPerSec
  if s > 0 then decimal s n (nanosPerSec / 10) "s"
  else if n ≥ nanosPerMilli then decimal (n / nanosPerMilli) (n % nanosPerMilli) 100000 "ms"
  else if n ≥ 1000 then decimal (n / 1000) (n % 1000) 100 "µs"
  else decimal n 0 1 "ns"

end Duration

end Backplane
