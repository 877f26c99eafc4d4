import Backplane.Time.Civil

/-!
# Reading RFC 3339 dates and times

The reader is lenient in the ways RFC 3339 readers commonly are:

* blanks may precede each number; the year has one to four digits, or a sign and any number
  of digits;
* date and time are separated by `T`, `t` or a space;
* seconds may be 60 (a leap second), and any number of fractional digits may follow a point,
  of which the first nine count;
* the offset, after optional blanks, is `Z`, `z`, `UTC` in any case, or a sign (`+`, `-` or
  the minus sign U+2212), two digits of hours, optional colons or blanks, and two digits of
  minutes;
* blanks may follow the whole.

Each failure has one of six causes, found in this order: while reading the fields in turn
(a field out of its range counts as soon as it is read), then on the date (which must exist
in the calendar), then on the offset (under a day), and last on the UTC day (which must lie
in the calendar).
-/

namespace Backplane

/-- Why a text is not a date and time. -/
inductive DateFault where
  | outOfRange
  | impossible
  | notEnough
  | invalid
  | tooShort
  | tooLong
  deriving Repr, Inhabited, DecidableEq

/-- The wording of a date fault. -/
def DateFault.message : DateFault → String
  | outOfRange => "input is out of range"
  | impossible => "no possible date and time matching input"
  | notEnough => "input is not enough for unique date and time"
  | invalid => "input contains invalid characters"
  | tooShort => "premature end of input"
  | tooLong => "trailing input"

namespace Rfc3339

/-- Characters with the Unicode White_Space property. -/
def isSpace (c : Char) : Bool :=
  let n := c.toNat
  (9 ≤ n && n ≤ 13) || n == 32 || n == 0x85 || n == 0xA0 || n == 0x1680 ||
    (0x2000 ≤ n && n ≤ 0x200A) || n == 0x2028 || n == 0x2029 || n == 0x202F ||
    n == 0x205F || n == 0x3000

def trimStart (s : List Char) : List Char := s.dropWhile isSpace

/-- The decimal digits at the front, between `lo` and `hi` of them, as a number below `2^63`. -/
def digitsAux (lo : Nat) : Nat → Nat → Nat → List Char → Except DateFault (Nat × List Char)
  | 0, _, acc, s => .ok (acc, s)
  | fuel + 1, i, acc, s =>
    match s with
    | c :: rest =>
      if c.isDigit then
        let v := acc * 10 + (c.toNat - 48)
        if v ≥ Nat.pow 2 63 then .error .outOfRange else digitsAux lo fuel (i + 1) v rest
      else if i < lo then .error .invalid
      else .ok (acc, s)
    | [] => if i < lo then .error .tooShort else .ok (acc, [])

/-- Between one and `hi` decimal digits. -/
def digits (hi : Nat) (s : List Char) : Except DateFault (Nat × List Char) :=
  if s.isEmpty then .error .tooShort else digitsAux 1 hi 0 0 s

/-- A number that must lie in `[lo, hi]`, after optional blanks, of one or two digits. -/
def field (lo hi : Nat) (s : List Char) : Except DateFault (Nat × List Char) := do
  let (v, rest) ← digits 2 (trimStart s)
  if lo ≤ v && v ≤ hi then pure (v, rest) else .error .outOfRange

/-- A year: a sign and any number of digits, or one to four digits; it must fit 32 bits. -/
def year (s : List Char) : Except DateFault (Int × List Char) := do
  let s := trimStart s
  let (v, rest) ← match s with
    | '-' :: rest => do let (v, r) ← digits rest.length rest; pure (-(v : Int), r)
    | '+' :: rest => do let (v, r) ← digits rest.length rest; pure ((v : Int), r)
    | _ => do let (v, r) ← digits 4 s; pure ((v : Int), r)
  if -Int.pow 2 31 ≤ v && v < Int.pow 2 31 then pure (v, rest) else .error .outOfRange

/-- A literal character. -/
def literal (c : Char) (s : List Char) : Except DateFault (List Char) :=
  match s with
  | d :: rest => if d == c then .ok rest else .error .invalid
  | [] => .error .tooShort

/-- An optional fraction of a second: nanoseconds from the first nine digits after a point;
further digits are skipped. -/
def fraction (s : List Char) : Except DateFault (Nat × List Char) :=
  match s with
  | '.' :: rest => do
    let (v, after) ← digits 9 rest
    let used := rest.length - after.length
    pure (v * Nat.pow 10 (9 - used), after.dropWhile Char.isDigit)
  | _ => .ok (0, s)

def byteLength (s : List Char) : Nat := s.foldl (fun n c => n + c.utf8Size) 0

/-- Two digits of an offset; too short when fewer than two bytes remain. -/
def twoDigits (s : List Char) : Except DateFault (Char × Char × List Char) :=
  match s with
  | a :: b :: rest => .ok (a, b, rest)
  | _ => if byteLength s < 2 then .error .tooShort else .error .invalid

/-- An offset from UTC in seconds: `Z`, or a signed `hh[:]mm`. -/
def offset (s : List Char) : Except DateFault (Int × List Char) := do
  match s with
  | 'Z' :: rest => return (0, rest)
  | 'z' :: rest => return (0, rest)
  | _ => pure ()
  let (negative, s) ← match s with
    | '+' :: rest => pure (false, rest)
    | '-' :: rest => pure (true, rest)
    | c :: rest => if c.toNat == 0x2212 then pure (true, rest) else .error .invalid
    | [] => .error .tooShort
  let (h1, h2, s) ← twoDigits s
  if !(h1.isDigit && h2.isDigit) then .error .invalid
  let hours := (h1.toNat - 48) * 10 + (h2.toNat - 48)
  let s := s.dropWhile fun c => c == ':' || isSpace c
  let (m1, m2, s) ← twoDigits s
  if !m2.isDigit || !m1.isDigit then .error .invalid
  if m1.toNat ≥ 54 then .error .outOfRange
  let minutes := (m1.toNat - 48) * 10 + (m2.toNat - 48)
  let secs : Int := hours * 3600 + minutes * 60
  return (if negative then -secs else secs, s)

/-- Whether a text starts with `UTC` in any case. -/
def startsUtc : List Char → Bool
  | a :: b :: c :: _ => a.toUpper == 'U' && b.toUpper == 'T' && c.toUpper == 'C'
  | _ => false

/-- The fields of a date and time as written, before they are checked together. -/
structure Fields where
  date : Date
  hour : Nat
  minute : Nat
  second : Nat
  nano : Nat
  offset : Int
  deriving Repr

/-- Read the fields of a date and time and check that nothing but blanks follows. -/
def fields (text : String) : Except DateFault Fields := do
  let s := text.toList
  let (y, s) ← year s
  let s ← literal '-' s
  let (mo, s) ← field 1 12 s
  let s ← literal '-' s
  let (d, s) ← field 1 31 s
  let s ← match s with
    | c :: rest => if c == 'T' || c == 't' || c == ' ' then pure rest else .error .invalid
    | [] => .error .tooShort
  let (h, s) ← field 0 23 s
  let s ← literal ':' s
  let (mi, s) ← field 0 59 s
  let s ← literal ':' s
  let (sec, s) ← field 0 60 s
  let (nano, s) ← fraction s
  let s := trimStart s
  let (off, s) ← if startsUtc s then pure (0, s.drop 3) else offset s
  if !(trimStart s).isEmpty then .error .tooLong
  return ⟨⟨y, mo, d⟩, h, mi, sec, nano, off⟩

/-- The UTC moment of a date and time in RFC 3339. -/
def parse (text : String) : Except DateFault Moment := do
  let f ← fields text
  if !f.date.valid then .error .outOfRange
  -- a leap second is the 59th second, with its nanoseconds past 10^9
  let (sec, nano) := if f.second = 60 then (59, f.nano + 1000000000) else (f.second, f.nano)
  if !(f.offset.natAbs < 86400) then .error .outOfRange
  let wall : Int := (f.hour * 3600 + f.minute * 60 + sec : Nat)
  let utc := wall - f.offset
  let shift := utc / 86400
  let days := f.date.toDays + shift
  if days < firstDay || days > lastDay then .error .impossible
  return ⟨days, (utc - shift * 86400).toNat, nano⟩

end Rfc3339

end Backplane
