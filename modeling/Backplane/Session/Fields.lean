import Backplane.Json.Shape
import Backplane.Time.Civil
import Backplane.Errors

/-!
# Requests and answers

A request is a JSON object; its fields are read here, and a request that lacks a field or
gives one of the wrong type is refused with a message (a *bad input*). Answers are JSON
values built with the encodings of this module:

* a duration is its whole milliseconds, or their decimal text beyond 64 bits;
* an instant is its milliseconds since the epoch, rounded down;
* bytes are a string when they are valid UTF-8, otherwise `{"hex": ...}` in lower case;
* an error is `{"error": kind, "message": text}`.

In requests, a duration is a count of milliseconds or `"max"`, the longest duration, and
bytes are a string (its UTF-8 bytes) or `{"hex": ...}`.
-/

namespace Backplane.Session

open Json

/-- A computation on a request that may refuse it with a message. -/
abbrev Checked := Except String

/-! ## Reading fields -/

/-- A field of a request; a `null` field counts as absent. -/
def field? (req : Json) (k : String) : Option Json :=
  match req.field? k with
  | some .null => none
  | v => v

/-- A present field. -/
def need (req : Json) (k : String) : Checked Json :=
  match field? req k with
  | some v => .ok v
  | none => .error ("missing field '" ++ k ++ "'")

/-- Any value of a field; `null` when absent. -/
def anyField (req : Json) (k : String) : Json := (req.field? k).getD .null

/-- A string field, if present. -/
def optStr (req : Json) (k : String) : Checked (Option String) :=
  match field? req k with
  | none => .ok none
  | some (.str s) => .ok (some s)
  | some _ => .error ("field '" ++ k ++ "' must be a string")

/-- A string field. -/
def str (req : Json) (k : String) : Checked String := do
  match ← optStr req k with
  | some s => .ok s
  | none => .error ("missing field '" ++ k ++ "'")

/-- A string field with a default. -/
def strOr (req : Json) (k d : String) : Checked String := do
  return (← optStr req k).getD d

/-- A boolean field, false when absent. -/
def flag (req : Json) (k : String) : Checked Bool :=
  match field? req k with
  | none => .ok false
  | some (.bool b) => .ok b
  | some _ => .error ("field '" ++ k ++ "' must be a boolean")

/-- A boolean field with a default. -/
def flagOr (req : Json) (k : String) (d : Bool) : Checked Bool :=
  match field? req k with
  | none => .ok d
  | some (.bool b) => .ok b
  | some _ => .error ("field '" ++ k ++ "' must be a boolean")

/-- An integer field, if present. -/
def optInt (req : Json) (k : String) : Checked (Option Int) :=
  match field? req k with
  | none => .ok none
  | some (.int i) => .ok (some i)
  | some _ => .error ("field '" ++ k ++ "' must be an integer")

/-- An integer field. -/
def int (req : Json) (k : String) : Checked Int := do
  match ← optInt req k with
  | some i => .ok i
  | none => .error ("missing field '" ++ k ++ "'")

/-- A natural number field, if present. -/
def optNat (req : Json) (k : String) : Checked (Option Nat) :=
  match field? req k with
  | none => .ok none
  | some (.int i) =>
    if i ≥ 0 then .ok (some i.toNat)
    else .error ("field '" ++ k ++ "' must be a non-negative integer")
  | some _ => .error ("field '" ++ k ++ "' must be a non-negative integer")

/-- A natural number field. -/
def nat (req : Json) (k : String) : Checked Nat := do
  match ← optNat req k with
  | some n => .ok n
  | none => .error ("missing field '" ++ k ++ "'")

/-- A natural number field with a default. -/
def natOr (req : Json) (k : String) (d : Nat) : Checked Nat := do
  return (← optNat req k).getD d

/-- A list field, empty when absent. -/
def list (req : Json) (k : String) : Checked (List Json) :=
  match field? req k with
  | none => .ok []
  | some (.arr xs) => .ok xs
  | some _ => .error ("field '" ++ k ++ "' must be a list")

/-- A list of strings. -/
def strList (req : Json) (k : String) : Checked (List String) := do
  (← list req k).mapM fun
    | .str s => .ok s
    | _ => .error ("field '" ++ k ++ "' must be a list of strings")

/-- A duration: milliseconds or `"max"`. -/
def durationOf (v : Json) : Checked Duration :=
  match v with
  | .int i => if i ≥ 0 then .ok (Duration.ofMillis i.toNat) else bad
  | .str "max" => .ok Duration.max
  | _ => bad
where
  bad : Checked Duration :=
    .error ("duration must be milliseconds or \"max\", got " ++ v.render)

/-- A duration field, if present. -/
def optMillis (req : Json) (k : String) : Checked (Option Duration) :=
  match field? req k with
  | none => .ok none
  | some v => some <$> durationOf v

/-- A duration field with a default. -/
def millisOr (req : Json) (k : String) (d : Duration) : Checked Duration := do
  return (← optMillis req k).getD d

/-- A duration field. -/
def millis (req : Json) (k : String) : Checked Duration := do
  match ← optMillis req k with
  | some d => .ok d
  | none => .error ("missing field '" ++ k ++ "'")

/-- The bytes of a hexadecimal text, two digits a byte. -/
def hexBytes (s : String) : Option ByteArray :=
  let rec go : List Char → ByteArray → Option ByteArray
    | a :: b :: rest, acc =>
      match Reader.hexValue a.toNat.toUInt8, Reader.hexValue b.toNat.toUInt8 with
      | some x, some y => if a.toNat < 128 && b.toNat < 128 then go rest (acc.push (x * 16 + y).toUInt8)
        else none
      | _, _ => none
    | [], acc => some acc
    | [_], _ => none
  go s.toList ByteArray.empty

/-- Bytes: a string's UTF-8 bytes, or `{"hex": ...}`. -/
def bytesOf (v : Json) : Checked ByteArray :=
  match v with
  | .str s => .ok s.toUTF8
  | .obj _ =>
    match v.field? "hex" with
    | some (.str h) =>
      match hexBytes h with
      | some b => .ok b
      | none => .error ("invalid hex bytes " ++ Json.quote h)
    | _ => .error "bytes must be a string or \x7b\"hex\": ...\x7d"
  | _ => .error "bytes must be a string or \x7b\"hex\": ...\x7d"

/-- A bytes field. -/
def bytes (req : Json) (k : String) : Checked ByteArray := do
  bytesOf (← need req k)

/-! ## Answers -/

/-- An error answer. -/
def errorAnswer (kind message : String) : Json :=
  .obj [("error", .str kind), ("message", .str message)]

/-- The answer to a malformed request. -/
def badInput (message : String) : Json := errorAnswer "bad_input" message

def u64Max : Nat := 18446744073709551615

/-- A duration as whole milliseconds; beyond 64 bits, as their decimal text. -/
def durationJson (d : Duration) : Json :=
  if d.millis ≤ u64Max then .int d.millis else .str (toString d.millis)

/-- An optional duration. -/
def optDurationJson : Option Duration → Json
  | some d => durationJson d
  | none => .null

/-- An instant as milliseconds since the epoch. -/
def stampJson (t : Stamp) : Json := .int t.millis

/-- An optional instant. -/
def optStampJson : Option Stamp → Json
  | some t => stampJson t
  | none => .null

/-- Two lower-case hexadecimal digits of a byte. -/
def hexOf (b : UInt8) : String :=
  String.singleton (Json.hexDigit (b.toNat / 16)) ++ String.singleton (Json.hexDigit (b.toNat % 16))

/-- Bytes as text when they are UTF-8, else as hexadecimal. -/
def bytesJson (b : ByteArray) : Json :=
  match String.fromUTF8? b with
  | some s => .str s
  | none => .obj [("hex", .str (String.join (b.toList.map hexOf)))]

/-- The answer for an error of a core service. -/
def coreErrorJson (e : CoreError) : Json := errorAnswer e.kind e.message

def cacheErrorJson (e : CacheError) : Json := errorAnswer e.kind e.message

def lockErrorJson (e : LockError) : Json := errorAnswer e.kind e.message

def queueErrorJson (e : QueueError) : Json := errorAnswer e.kind e.message

def jobErrorJson (e : JobError) : Json := errorAnswer e.kind e.message

/-- `"ok"` for success, the error otherwise. -/
def checkJson {ε : Type} (toJson : ε → Json) : Except ε Unit → Json
  | .ok () => .str "ok"
  | .error e => toJson e

end Backplane.Session
