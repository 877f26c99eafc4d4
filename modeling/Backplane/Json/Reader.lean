import Backplane.Json.Value

/-!
# Reading JSON text

A reader walks the bytes of a JSON text with a cursor. Every failure names its cause
(`Fault`) and, when known, the place where it was found, as line and column: the line counts
from 1, the column counts the bytes since the line began.

Two places are used. A fault found *at* the cursor reports the bytes consumed so far; a fault
found by *looking at* the next byte reports one byte further, but never past the end. A
fault raised by a decoder about the meaning of a value (a wrong type, a missing field) has no
place of its own: the decoder that read the value gives it the place where its reading
stopped.

Reading never moves the cursor back, and a failure keeps the cursor where it happened: the
reader is `ExceptT` over the state, so the state survives a failure, and a caller that
catches it sees how far the text was consumed.

The primitives here are those shared by every decoder: blanks, the words `null`, `true` and
`false`, numbers, strings with their escapes, and skipping a value of any shape.
-/

namespace Backplane.Json

/-! ## Faults -/

/-- Why JSON text could not be read. -/
inductive Fault where
  | eofList
  | eofObject
  | eofString
  | eofValue
  | expectedColon
  | expectedListCommaOrEnd
  | expectedObjectCommaOrEnd
  | expectedIdent
  | expectedValue
  | invalidEscape
  | invalidNumber
  | numberOutOfRange
  | invalidCodePoint
  | controlCharacter
  | keyMustBeString
  | loneLeadingSurrogate
  | trailingComma
  | trailingCharacters
  | unexpectedEndOfHexEscape
  | recursionLimit
  /-- A value that a decoder refused, in the decoder's own words. -/
  | refused (text : String)
  deriving Repr, Inhabited, DecidableEq

/-- The wording of a fault. -/
def Fault.message : Fault → String
  | eofList => "EOF while parsing a list"
  | eofObject => "EOF while parsing an object"
  | eofString => "EOF while parsing a string"
  | eofValue => "EOF while parsing a value"
  | expectedColon => "expected `:`"
  | expectedListCommaOrEnd => "expected `,` or `]`"
  | expectedObjectCommaOrEnd => "expected `,` or `\x7d`"
  | expectedIdent => "expected ident"
  | expectedValue => "expected value"
  | invalidEscape => "invalid escape"
  | invalidNumber => "invalid number"
  | numberOutOfRange => "number out of range"
  | invalidCodePoint => "invalid unicode code point"
  | controlCharacter => "control character (\\u0000-\\u001F) found while parsing a string"
  | keyMustBeString => "key must be a string"
  | loneLeadingSurrogate => "lone leading surrogate in hex escape"
  | trailingComma => "trailing comma"
  | trailingCharacters => "trailing characters"
  | unexpectedEndOfHexEscape => "unexpected end of hex escape"
  | recursionLimit => "recursion limit exceeded"
  | refused text => text

/-- A failure to read JSON text: its cause, and the line and column where it was found. -/
structure ReadError where
  fault : Fault
  place : Option (Nat × Nat)
  deriving Repr, Inhabited, DecidableEq

/-- The wording of a failure, followed by its place when it has one. -/
def ReadError.message (e : ReadError) : String :=
  match e.place with
  | some (line, column) =>
    e.fault.message ++ " at line " ++ toString line ++ " column " ++ toString column
  | none => e.fault.message

/-- The line and column of byte `i`: one more than the line feeds before it, and the bytes
between the last of them and `i`. -/
def placeOf (text : ByteArray) (i : Nat) : Nat × Nat :=
  let (line, lineStart) := (List.range i).foldl
    (fun (acc : Nat × Nat) j => if text.data[j]? = some 10 then (acc.1 + 1, j + 1) else acc)
    (1, 0)
  (line, i - lineStart)

/-! ## The reader -/

/-- Where a reader stands: the next byte, and how many more levels of brackets may open. -/
structure Cursor where
  pos : Nat
  depth : Nat
  deriving Repr, Inhabited

/-- The deepest nesting of arrays and objects that a reader accepts is one less than this. -/
def depthLimit : Nat := 128

/-- A computation that reads JSON text. -/
abbrev Reader := ReaderT ByteArray (ExceptT ReadError (StateM Cursor))

/-- Run a reader over a whole text from its first byte. -/
def Reader.run' {α : Type} (r : Reader α) (text : ByteArray) : Except ReadError α :=
  ((ReaderT.run r text).run.run ⟨0, depthLimit⟩).1

namespace Reader

/-- The next byte, if any. -/
def peek : Reader (Option UInt8) := do
  return (← read).data[(← get).pos]?

/-- The next byte, or 0 at the end. -/
def peekOrNull : Reader UInt8 := do
  return (← peek).getD 0

/-- Step over one byte. -/
def advance : Reader Unit :=
  modify fun c => { c with pos := c.pos + 1 }

/-- Take the next byte, if any. -/
def next : Reader (Option UInt8) := do
  let b ← peek
  if b.isSome then advance
  return b

/-- An upper bound on the steps of any loop that consumes a byte per step. -/
def budget : Reader Nat := do
  return (← read).size - (← get).pos + 1

/-- Fail with a fault placed at byte `i`. -/
def failAt {α : Type} (f : Fault) (i : Nat) : Reader α := do
  throw ⟨f, some (placeOf (← read) i)⟩

/-- Fail with a fault placed at the cursor. -/
def fail {α : Type} (f : Fault) : Reader α := do
  failAt f (← get).pos

/-- Fail with a fault placed just after the next byte, or at the end. -/
def failPeek {α : Type} (f : Fault) : Reader α := do
  let text ← read
  failAt f (min text.size ((← get).pos + 1))

/-- Fail with a fault that has no place yet. -/
def refuse {α : Type} (text : String) : Reader α :=
  throw ⟨.refused text, none⟩

/-- Give a placeless failure the place of the cursor. -/
def fixPlace (e : ReadError) : Reader ReadError := do
  match e.place with
  | some _ => return e
  | none => return ⟨e.fault, some (placeOf (← read) (← get).pos)⟩

/-- Run `act`, placing any placeless failure where the cursor then stands. -/
def placed {α : Type} (act : Reader α) : Reader α :=
  tryCatch act fun e => do throw (← fixPlace e)

/-- Run `act` and return its outcome, failure included, without failing. -/
def attempt {α : Type} (act : Reader α) : Reader (Except ReadError α) :=
  tryCatch (Except.ok <$> act) fun e => pure (Except.error e)

/-- Open one more level of brackets, failing when the limit is reached. -/
def enter : Reader Unit := do
  let c ← get
  if c.depth ≤ 1 then failPeek .recursionLimit
  set { c with depth := c.depth - 1 }

/-- Close a level of brackets. -/
def leave : Reader Unit :=
  modify fun c => { c with depth := c.depth + 1 }

/-! ## Blanks and words -/

/-- The four blank bytes of JSON: space, line feed, tab, carriage return. -/
def isBlank (b : UInt8) : Bool := b == 32 || b == 10 || b == 9 || b == 13

def isDigit (b : UInt8) : Bool := 48 ≤ b && b ≤ 57

def digitValue (b : UInt8) : Nat := b.toNat - 48

/-- Skip at most `fuel` blanks. -/
def skipBlanks : Nat → Reader Unit
  | 0 => pure ()
  | fuel + 1 => do
    match ← peek with
    | some b => if isBlank b then do advance; skipBlanks fuel else pure ()
    | none => pure ()

/-- Skip blanks and look at the byte after them. -/
def peekToken : Reader (Option UInt8) := do
  skipBlanks (← budget)
  peek

/-- Read the rest of a word whose first letter was taken. -/
def expectWord : List UInt8 → Reader Unit
  | [] => pure ()
  | b :: rest => do
    match ← next with
    | none => fail .eofValue
    | some c => if c == b then expectWord rest else fail .expectedIdent

/-- The rest of `null`. -/
def ull : List UInt8 := [117, 108, 108]

/-- The rest of `true`. -/
def rue : List UInt8 := [114, 117, 101]

/-- The rest of `false`. -/
def alse : List UInt8 := [97, 108, 115, 101]

/-! ## Numbers -/

/-- A number as read: an integer that fits in 64 bits unsigned, a negative one that fits in
64 bits signed, or any other number as a binary64 value beside the text it was read from. -/
inductive Num where
  | nat (n : Nat)
  | neg (i : Int)
  | real (text : String) (value : Float)
  deriving Inhabited

def u64Max : Nat := 18446744073709551615

/-- The largest signed 32-bit integer, the bound of a decimal exponent. -/
def i32Max : Nat := 2147483647

/-- Whether `acc * 10 + d` passes `bound`. -/
def passes (acc d bound : Nat) : Bool :=
  acc ≥ bound / 10 && (acc > bound / 10 || d > bound % 10)

/-- Ten to the power `k`, correctly rounded. -/
def pow10 (k : Nat) : Float := Float.ofScientific 1 false k

/-- `m · 10^e` in binary64, by one multiplication or division by a power of ten of at most
308, after steps that divide by `10^308` while the exponent is below `-308`; `none` when the
value overflows. -/
def scale : Nat → Float → Int → Option Float
  | 0, f, _ => some f
  | fuel + 1, f, e =>
    if e.natAbs ≤ 308 then
      if e ≥ 0 then
        let g := f * pow10 e.natAbs
        if g.isInf then none else some g
      else some (f / pow10 e.natAbs)
    else if f == 0 then some f
    else if e ≥ 0 then none
    else scale fuel (f / pow10 308) (e + 308)

/-- The binary64 value of the significand `m` and decimal exponent `e`, or `none` out of range.
Eight steps suffice: a significand below `2^64` vanishes after three divisions by `10^308`. -/
def fromParts (m : Nat) (e : Int) : Option Float :=
  scale 8 (Float.ofNat m) e

/-- The value of a significand and exponent, with its sign, or a range failure at the cursor. -/
def finishReal (positive : Bool) (m : Nat) (e : Int) : Reader Float :=
  match fromParts m e with
  | some f => pure (if positive then f else -f)
  | none => fail .numberOutOfRange

/-- Skip at most `fuel` digits. -/
def skipDigits : Nat → Reader Unit
  | 0 => pure ()
  | fuel + 1 => do
    if isDigit (← peekOrNull) then do advance; skipDigits fuel else pure ()

/-- Skip at most `fuel` digits and count them. -/
def countDigits : Nat → Nat → Reader Nat
  | 0, n => pure n
  | fuel + 1, n => do
    if isDigit (← peekOrNull) then do advance; countDigits fuel (n + 1) else pure n

/-- Digits of an exponent: their value, or `none` once it passes the 32-bit bound, the digit
that passes it being taken. -/
def exponentDigits : Nat → Nat → Reader (Option Nat)
  | 0, acc => pure (some acc)
  | fuel + 1, acc => do
    let c ← peekOrNull
    if isDigit c then
      advance
      if passes acc (digitValue c) i32Max then pure none
      else exponentDigits fuel (acc * 10 + digitValue c)
    else pure (some acc)

/-- An exponent, the cursor at `e` or `E`, applied to the significand `m` and the exponent
`start` carried by the digits before it. -/
def exponentPart (positive : Bool) (m : Nat) (start : Int) : Reader Float := do
  advance
  let c ← peekOrNull
  let up ← if c == 43 then do advance; pure true
    else if c == 45 then do advance; pure false
    else pure true
  match ← next with
  | none => fail .eofValue
  | some d =>
    if !isDigit d then fail .invalidNumber
    else
      match ← exponentDigits (← budget) (digitValue d) with
      | some e => finishReal positive m (if up then start + e else start - e)
      | none =>
        if m != 0 && up then fail .numberOutOfRange
        else
          skipDigits (← budget)
          pure (if positive then 0.0 else -0.0)

/-- Digits of a fraction: the significand, how many digits joined it, and whether one did
not fit (the cursor then stands at that digit). -/
def fractionDigits : Nat → Nat → Nat → Reader (Nat × Nat × Bool)
  | 0, m, k => pure (m, k, false)
  | fuel + 1, m, k => do
    let c ← peekOrNull
    if isDigit c then
      if passes m (digitValue c) u64Max then pure (m, k, true)
      else do advance; fractionDigits fuel (m * 10 + digitValue c) (k + 1)
    else pure (m, k, false)

/-- A fraction, the cursor at the point, continuing the significand `m` whose exponent so far
is `before`. -/
def fractionPart (positive : Bool) (m : Nat) (before : Int) : Reader Float := do
  advance
  let (m, k, full) ← fractionDigits (← budget) m 0
  let e := before - k
  if full then
    skipDigits (← budget)
  else if k = 0 then
    match ← peek with
    | some _ => failPeek .invalidNumber
    | none => failPeek .eofValue
  let c ← peekOrNull
  if c == 101 || c == 69 then exponentPart positive m e else finishReal positive m e

/-- The digits of an integer that no longer fits in 64 bits, then what follows them. -/
def longInteger (positive : Bool) (m : Nat) : Reader Float := do
  let n ← countDigits (← budget) 0
  let c ← peekOrNull
  if c == 46 then fractionPart positive m n
  else if c == 101 || c == 69 then exponentPart positive m n
  else finishReal positive m n

/-- What follows the integer digits of a number with significand `m`. -/
def numberTail (positive : Bool) (m : Nat) : Reader (Sum Float Int) := do
  let c ← peekOrNull
  if c == 46 then return .inl (← fractionPart positive m 0)
  else if c == 101 || c == 69 then return .inl (← exponentPart positive m 0)
  else if positive then return .inr m
  else if m = 0 then return .inl (-0.0)
  else if m ≤ Nat.pow 2 63 then return .inr (-(m : Int))
  else return .inl (-(Float.ofNat m))

/-- Integer digits after the first, as long as they fit in 64 bits. -/
def integerDigits (positive : Bool) : Nat → Nat → Reader (Sum Float Int)
  | 0, m => numberTail positive m
  | fuel + 1, m => do
    let c ← peekOrNull
    if isDigit c then
      if passes m (digitValue c) u64Max then return .inl (← longInteger positive m)
      else do advance; integerDigits positive fuel (m * 10 + digitValue c)
    else numberTail positive m

/-- A number without its sign, the cursor at its first digit: an integer, or a binary64 value. -/
def integer (positive : Bool) : Reader (Sum Float Int) := do
  match ← next with
  | none => fail .eofValue
  | some c =>
    if c == 48 then
      if isDigit (← peekOrNull) then failPeek .invalidNumber else numberTail positive 0
    else if isDigit c then integerDigits positive (← budget) (digitValue c)
    else fail .invalidNumber

/-- The text of the bytes from `start` to the cursor, which are ASCII. -/
def textFrom (start : Nat) : Reader String := do
  let text ← read
  let stop := (← get).pos
  return String.ofList ((text.extract start stop).toList.map fun b => Char.ofNat b.toNat)

/-- A number, the cursor at its sign or first digit. -/
def number : Reader Num := do
  let start := (← get).pos
  let positive ← if (← peekOrNull) == 45 then do advance; pure false else pure true
  match ← integer positive with
  | .inr i => return if i ≥ 0 then .nat i.toNat else .neg i
  | .inl f => return .real (← textFrom start) f

/-! ## Strings -/

/-- Step over bytes that need no attention in a string: all but a quote, a backslash and a
control byte. -/
def skipPlain : Nat → Reader Unit
  | 0 => pure ()
  | fuel + 1 => do
    match ← peek with
    | some b => if b == 34 || b == 92 || b < 32 then pure () else do advance; skipPlain fuel
    | none => pure ()

/-- The value of a hexadecimal digit. -/
def hexValue (b : UInt8) : Option Nat :=
  if 48 ≤ b && b ≤ 57 then some (b.toNat - 48)
  else if 97 ≤ b && b ≤ 102 then some (b.toNat - 87)
  else if 65 ≤ b && b ≤ 70 then some (b.toNat - 55)
  else none

/-- Four hexadecimal digits of a `\u` escape. All four are taken before they are judged; with
fewer than four left the reader takes the rest and fails at the end. -/
def hex4 : Reader Nat := do
  let text ← read
  let p := (← get).pos
  if p + 4 ≤ text.size then
    modify fun c => { c with pos := p + 4 }
    let digit (i : Nat) : Option Nat := (text.data[p + i]?).bind hexValue
    match digit 0, digit 1, digit 2, digit 3 with
    | some a, some b, some c, some d => pure (((a * 16 + b) * 16 + c) * 16 + d)
    | _, _, _, _ => fail .invalidEscape
  else
    modify fun c => { c with pos := text.size }
    fail .eofString

/-- The UTF-8 bytes of a code point. -/
def utf8Bytes (n : Nat) : List UInt8 :=
  if n < 0x80 then [n.toUInt8]
  else if n < 0x800 then [(0xC0 + n / 64).toUInt8, (0x80 + n % 64).toUInt8]
  else if n < 0x10000 then
    [(0xE0 + n / 4096).toUInt8, (0x80 + n / 64 % 64).toUInt8, (0x80 + n % 64).toUInt8]
  else
    [(0xF0 + n / 262144).toUInt8, (0x80 + n / 4096 % 64).toUInt8,
      (0x80 + n / 64 % 64).toUInt8, (0x80 + n % 64).toUInt8]

/-- Append the UTF-8 bytes of a code point. -/
def pushCode (out : ByteArray) (n : Nat) : ByteArray :=
  (utf8Bytes n).foldl ByteArray.push out

/-- A `\u` escape, the cursor after the `u`. A trailing surrogate alone, or a leading one not
followed by an escaped trailing one, is refused: the text must stay valid Unicode. -/
def unicodeEscape (out : ByteArray) : Reader ByteArray := do
  let n ← hex4
  if 0xDC00 ≤ n && n ≤ 0xDFFF then fail .loneLeadingSurrogate
  else if n < 0xD800 || n > 0xDBFF then pure (pushCode out n)
  else
    match ← peek with
    | none => fail .eofString
    | some b =>
      advance
      if b != 92 then fail .unexpectedEndOfHexEscape
      else
        match ← peek with
        | none => fail .eofString
        | some u =>
          advance
          if u != 117 then fail .unexpectedEndOfHexEscape
          else
            let n2 ← hex4
            if n2 < 0xDC00 || n2 > 0xDFFF then fail .loneLeadingSurrogate
            else pure (pushCode out (0x10000 + (n - 0xD800) * 1024 + (n2 - 0xDC00)))

/-- The byte that a one-letter escape stands for. -/
def shortEscape (c : UInt8) : Option UInt8 :=
  if c == 34 then some 34
  else if c == 92 then some 92
  else if c == 47 then some 47
  else if c == 98 then some 8
  else if c == 102 then some 12
  else if c == 110 then some 10
  else if c == 114 then some 13
  else if c == 116 then some 9
  else none

/-- An escape, the cursor after the backslash. -/
def escape (out : ByteArray) : Reader ByteArray := do
  match ← next with
  | none => fail .eofString
  | some c =>
    match shortEscape c with
    | some b => pure (out.push b)
    | none => if c == 117 then unicodeEscape out else fail .invalidEscape

/-- The bytes of a string up to its closing quote, which is taken; at most `fuel` escapes. -/
def stringBytes : Nat → ByteArray → Reader ByteArray
  | 0, _ => fail .eofString
  | fuel + 1, out => do
    let start := (← get).pos
    skipPlain (← budget)
    let text ← read
    let p := (← get).pos
    match text.data[p]? with
    | none => fail .eofString
    | some b =>
      let out := out ++ text.extract start p
      advance
      if b == 34 then pure out
      else if b == 92 then do stringBytes fuel (← escape out)
      else fail .controlCharacter

/-- A string, the cursor after its opening quote. Its bytes must be valid UTF-8; a failure
is placed after the closing quote. -/
def string : Reader String := do
  let bytes ← stringBytes (← budget) ByteArray.empty
  match String.fromUTF8? bytes with
  | some s => pure s
  | none => fail .invalidCodePoint

/-! ## Skipping a value -/

/-- Step over an escape inside a skipped string, the cursor after the backslash. -/
def skipEscape : Reader Unit := do
  match ← next with
  | none => fail .eofString
  | some c =>
    match shortEscape c with
    | some _ => pure ()
    | none => if c == 117 then do discard hex4 else fail .invalidEscape

/-- Step over a string, the cursor after its opening quote, checking its escapes but not its
encoding. A control byte stops it before being taken. -/
def skipString : Nat → Reader Unit
  | 0 => fail .eofString
  | fuel + 1 => do
    skipPlain (← budget)
    match ← peek with
    | none => fail .eofString
    | some b =>
      if b == 34 then advance
      else if b == 92 then do advance; skipEscape; skipString fuel
      else fail .controlCharacter

/-- Step over an exponent, the cursor at `e` or `E`; the byte where a digit must stand is
taken even when it is none. -/
def skipExponent : Reader Unit := do
  advance
  let c ← peekOrNull
  if c == 43 || c == 45 then advance
  match ← next with
  | some d => if isDigit d then skipDigits (← budget) else fail .invalidNumber
  | none => fail .invalidNumber

/-- Step over a number without its sign, checking its syntax but not its range; its first
byte is taken even when it is no digit. -/
def skipNumber : Reader Unit := do
  match ← next with
  | some c =>
    if c == 48 then
      if isDigit (← peekOrNull) then failPeek .invalidNumber
    else if isDigit c then skipDigits (← budget)
    else fail .invalidNumber
  | none => fail .invalidNumber
  let c ← peekOrNull
  if c == 46 then
    advance
    let n ← countDigits (← budget) 0
    if n = 0 then failPeek .invalidNumber
    let c ← peekOrNull
    if c == 101 || c == 69 then skipExponent
  else if c == 101 || c == 69 then skipExponent

/-- After a complete value inside skipped brackets: take commas and closing brackets. The
stack holds the enclosing brackets, innermost first, `true` for an object. Returns `none`
when the outermost bracket closed, else the bracket whose next member comes. -/
def skipClose : Nat → Bool → Bool → List Bool → Reader (Option (Bool × List Bool))
  | 0, _, _, _ => failPeek .eofValue
  | fuel + 1, acceptComma, isObj, stack => do
    match ← peekToken with
    | some b =>
      if b == 44 && acceptComma then do advance; pure (some (isObj, stack))
      else if (b == 93 && !isObj) || (b == 125 && isObj) then
        advance
        match stack with
        | [] => pure none
        | outer :: rest => skipClose fuel true outer rest
      else if acceptComma then
        failPeek (if isObj then .expectedObjectCommaOrEnd else .expectedListCommaOrEnd)
      else pure (some (isObj, stack))
    | none => failPeek (if isObj then .eofObject else .eofList)

/-- Step over the key and colon of an object member. -/
def skipKey : Reader Unit := do
  match ← peekToken with
  | some b => if b == 34 then advance else failPeek .keyMustBeString
  | none => failPeek .eofObject
  skipString (← budget)
  match ← peekToken with
  | some b => if b == 58 then advance else failPeek .expectedColon
  | none => failPeek .eofObject

/-- Step over values inside brackets. `inner` is the bracket around the next value, if any,
and `stack` the brackets around it. Brackets do not count toward the depth limit here. -/
def skipLoop : Nat → Option Bool → List Bool → Reader Unit
  | 0, _, _ => failPeek .eofValue
  | fuel + 1, inner, stack => do
    let opened ← do
      match ← peekToken with
      | none => failPeek .eofValue
      | some b =>
        if b == 110 then do advance; expectWord ull; pure none
        else if b == 116 then do advance; expectWord rue; pure none
        else if b == 102 then do advance; expectWord alse; pure none
        else if b == 45 then do advance; skipNumber; pure none
        else if isDigit b then do skipNumber; pure none
        else if b == 34 then do advance; skipString (← budget); pure none
        else if b == 91 || b == 123 then do advance; pure (some (b == 123))
        else failPeek .expectedValue
    let next? ← match opened, inner with
      | some isObj, _ => skipClose (← budget) false isObj (inner.toList ++ stack)
      | none, some isObj => skipClose (← budget) true isObj stack
      | none, none =>
        match stack with
        | [] => pure none
        | isObj :: rest => skipClose (← budget) true isObj rest
    match next? with
    | none => pure ()
    | some (isObj, stack) =>
      if isObj then skipKey
      skipLoop fuel (some isObj) stack

/-- Step over one value of any shape, checking its syntax only. -/
def skipValue : Reader Unit := do
  skipLoop (← budget) none []

/-! ## Brackets -/

/-- Whether another element follows in an array; `first` before the first one. -/
def moreItems (first : Bool) : Reader Bool := do
  match ← peekToken with
  | none => failPeek .eofList
  | some b =>
    if b == 93 then pure false
    else if first then pure true
    else if b == 44 then
      advance
      match ← peekToken with
      | some c => if c == 93 then failPeek .trailingComma else pure true
      | none => failPeek .eofValue
    else failPeek .expectedListCommaOrEnd

/-- Whether another member follows in an object, the cursor then at its key's quote. -/
def moreMembers (first : Bool) : Reader Bool := do
  match ← peekToken with
  | none => failPeek .eofObject
  | some b =>
    if b == 125 then pure false
    else if first then
      if b == 34 then pure true else failPeek .keyMustBeString
    else if b == 44 then
      advance
      match ← peekToken with
      | some c =>
        if c == 34 then pure true
        else if c == 125 then failPeek .trailingComma
        else failPeek .keyMustBeString
      | none => failPeek .eofValue
    else failPeek .expectedObjectCommaOrEnd

/-- The key of a member, the cursor at its quote. -/
def key : Reader String := do
  advance
  string

/-- The colon between a key and its value. -/
def colon : Reader Unit := do
  match ← peekToken with
  | some b => if b == 58 then advance else failPeek .expectedColon
  | none => failPeek .eofObject

/-- The end of an array: its closing bracket. -/
def closeList : Reader Unit := do
  match ← peekToken with
  | some b =>
    if b == 93 then advance
    else if b == 44 then
      advance
      match ← peekToken with
      | some c => if c == 93 then failPeek .trailingComma else failPeek .trailingCharacters
      | none => failPeek .trailingCharacters
    else failPeek .trailingCharacters
  | none => failPeek .eofList

/-- The end of an object: its closing brace. -/
def closeObject : Reader Unit := do
  match ← peekToken with
  | some b =>
    if b == 125 then advance
    else if b == 44 then failPeek .trailingComma
    else failPeek .trailingCharacters
  | none => failPeek .eofObject

/-- Read the inside of brackets, the cursor at the opening one, then close them. A failure
inside wins over one in closing, but closing still moves the cursor first, so the failure
is placed after it. -/
def bracketed {α : Type} (body : Reader α) (close : Reader Unit) : Reader α := do
  enter
  advance
  let r ← attempt body
  leave
  let c ← attempt close
  match r, c with
  | .ok a, .ok () => pure a
  | .error e, _ => throw e
  | .ok _, .error e => throw e

/-- The end of a text: only blanks may follow the value. -/
def finish : Reader Unit := do
  match ← peekToken with
  | some _ => failPeek .trailingCharacters
  | none => pure ()

end Reader

end Backplane.Json
