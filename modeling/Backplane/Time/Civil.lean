import Backplane.Time.Duration

/-!
# Calendar time

Instants are counted in nanoseconds from 1970-01-01T00:00:00Z on the proleptic Gregorian
calendar. The calendar reaches from the first day of year -262143 to the last day of year
262142; `Stamp.maxUtc` is the last nanosecond of that range.

A `Moment` is an instant broken into days, seconds of the day and nanoseconds; it can also
hold a leap second, as the 59th second of a minute with 10^9 or more nanoseconds. Moments are
written in RFC 3339 in UTC, with `Z` and with 0, 3, 6 or 9 fractional digits: as few as show
the fraction exactly.
-/

namespace Backplane

/-! ## Days and dates -/

/-- A day of the calendar. -/
structure Date where
  year : Int
  month : Nat
  day : Nat
  deriving Repr, Inhabited, DecidableEq

/-- Whether a year has a 29th of February. -/
def isLeapYear (y : Int) : Bool := (y % 4 == 0 && y % 100 != 0) || y % 400 == 0

/-- The number of days of a month. -/
def daysInMonth (y : Int) (m : Nat) : Nat :=
  if m == 2 then (if isLeapYear y then 29 else 28)
  else if m == 4 || m == 6 || m == 9 || m == 11 then 30
  else 31

/-- The first year of the calendar. -/
def minYear : Int := -262143

/-- The last year of the calendar. -/
def maxYear : Int := 262142

/-- Whether a year, month and day name a day of the calendar. -/
def Date.valid (d : Date) : Bool :=
  minYear ≤ d.year && d.year ≤ maxYear && 1 ≤ d.month && d.month ≤ 12 &&
    1 ≤ d.day && d.day ≤ daysInMonth d.year d.month

/-- Days from 1970-01-01 to a date: years are counted from March, in eras of 400 years. -/
def Date.toDays (d : Date) : Int :=
  let y : Int := if d.month ≤ 2 then d.year - 1 else d.year
  let era := y / 400
  let yoe := y - era * 400
  let mp : Int := if d.month > 2 then d.month - 3 else d.month + 9
  let doy := (153 * mp + 2) / 5 + d.day - 1
  let doe := yoe * 365 + yoe / 4 - yoe / 100 + doy
  era * 146097 + doe - 719468

/-- The date `z` days after 1970-01-01, the inverse of `Date.toDays`. -/
def Date.ofDays (z : Int) : Date :=
  let z := z + 719468
  let era := z / 146097
  let doe := z - era * 146097
  let yoe := (doe - doe / 1460 + doe / 36524 - doe / 146096) / 365
  let doy := doe - (365 * yoe + yoe / 4 - yoe / 100)
  let mp := (5 * doy + 2) / 153
  let day := doy - (153 * mp + 2) / 5 + 1
  let month := if mp < 10 then mp + 3 else mp - 9
  let year := yoe + era * 400 + (if month ≤ 2 then 1 else 0)
  ⟨year, month.toNat, day.toNat⟩

/-- Days from 1970-01-01 to the first day of the calendar. -/
def firstDay : Int := Date.toDays ⟨minYear, 1, 1⟩

/-- Days from 1970-01-01 to the last day of the calendar. -/
def lastDay : Int := Date.toDays ⟨maxYear, 12, 31⟩

/-! ## Instants -/

/-- An instant, in nanoseconds since 1970-01-01T00:00:00Z. -/
structure Stamp where
  nanos : Int
  deriving Repr, Inhabited, DecidableEq

namespace Stamp

instance : LE Stamp := ⟨fun a b => a.nanos ≤ b.nanos⟩
instance : LT Stamp := ⟨fun a b => a.nanos < b.nanos⟩
instance (a b : Stamp) : Decidable (a ≤ b) := inferInstanceAs (Decidable (a.nanos ≤ b.nanos))
instance (a b : Stamp) : Decidable (a < b) := inferInstanceAs (Decidable (a.nanos < b.nanos))

def nanosPerDay : Int := 86400 * 1000000000

/-- The last instant of the calendar. -/
def maxUtc : Stamp := ⟨(lastDay + 1) * nanosPerDay - 1⟩

/-- The first instant of the calendar. -/
def minUtc : Stamp := ⟨firstDay * nanosPerDay⟩

def ofMillis (ms : Int) : Stamp := ⟨ms * 1000000⟩

/-- Milliseconds since the epoch, rounded down. -/
def millis (t : Stamp) : Int := t.nanos / 1000000

/-- Whether an instant lies in the calendar. -/
def inRange (t : Stamp) : Bool := minUtc.nanos ≤ t.nanos && t.nanos ≤ maxUtc.nanos

/-- The instant a duration later, or `none` past the calendar. -/
def addDuration? (t : Stamp) (d : Duration) : Option Stamp :=
  let u : Stamp := ⟨t.nanos + d.nanos⟩
  if u.nanos ≤ maxUtc.nanos then some u else none

/-- The instant a duration earlier, or `none` before the calendar. -/
def subDuration? (t : Stamp) (d : Duration) : Option Stamp :=
  let u : Stamp := ⟨t.nanos - d.nanos⟩
  if minUtc.nanos ≤ u.nanos then some u else none

/-- The instant a duration later, or the last instant of the calendar. -/
def addOrMax (t : Stamp) (d : Duration) : Stamp := (t.addDuration? d).getD maxUtc

/-- The time from `a` to a later `b`, or `none` when `b` is earlier. -/
def since? (b a : Stamp) : Option Duration :=
  if a.nanos ≤ b.nanos then some ⟨(b.nanos - a.nanos).toNat⟩ else none

/-- The time from `a` to `b`, zero when `b` is earlier. -/
def since (b a : Stamp) : Duration := ⟨(b.nanos - a.nanos).toNat⟩

end Stamp

/-! ## Moments and their text -/

/-- A date and time in UTC: days since 1970-01-01, the second of the day, and nanoseconds,
10^9 or more only in a leap second. -/
structure Moment where
  days : Int
  secs : Nat
  nano : Nat
  deriving Repr, Inhabited, DecidableEq

/-- The moment of an instant. -/
def Stamp.moment (t : Stamp) : Moment :=
  let days := t.nanos / Stamp.nanosPerDay
  let rest := (t.nanos - days * Stamp.nanosPerDay).toNat
  ⟨days, rest / 1000000000, rest % 1000000000⟩

/-- A number written with at least `width` digits, zeros in front. -/
def padded (width n : Nat) : String :=
  let s := toString n
  String.ofList (List.replicate (width - s.length) '0') ++ s

/-- A year: four digits from 0 to 9999, otherwise with its sign and at least four digits. -/
def yearText (y : Int) : String :=
  if 0 ≤ y && y ≤ 9999 then padded 4 y.toNat
  else (if y < 0 then "-" else "+") ++ padded 4 y.natAbs

/-- A fraction of a second: nothing for none, else milli-, micro- or nanoseconds, the
fewest of these that show it exactly. -/
def fractionText (nano : Nat) : String :=
  if nano = 0 then ""
  else if nano % 1000000 = 0 then "." ++ padded 3 (nano / 1000000)
  else if nano % 1000 = 0 then "." ++ padded 6 (nano / 1000)
  else "." ++ padded 9 nano

/-- A moment in RFC 3339, in UTC with `Z`. A leap second is written as second 60. -/
def Moment.text (m : Moment) : String :=
  let d := Date.ofDays m.days
  let (sec, nano) := if m.nano ≥ 1000000000 then (m.secs % 60 + 1, m.nano - 1000000000)
    else (m.secs % 60, m.nano)
  yearText d.year ++ "-" ++ padded 2 d.month ++ "-" ++ padded 2 d.day ++ "T" ++
    padded 2 (m.secs / 3600) ++ ":" ++ padded 2 (m.secs / 60 % 60) ++ ":" ++ padded 2 sec ++
    fractionText nano ++ "Z"

/-- An instant in RFC 3339. -/
def Stamp.text (t : Stamp) : String := t.moment.text

end Backplane
