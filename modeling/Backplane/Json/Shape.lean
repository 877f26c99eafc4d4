import Backplane.Json.Reader
import Backplane.Time.Rfc3339
import Backplane.Text.Shortest
import Backplane.Text.Literal

/-!
# Typed decoding

A `Shape` describes a wire type: a dynamic value, a string, a boolean, a bounded integer, a
timestamp, an optional value, a list, a record of named fields, or a choice among named
cases. `Shape.decode` reads a value of that shape from JSON text and returns it as the JSON
value it stands for: a record as an object with its fields in declaration order, a
timestamp as its RFC 3339 text in UTC.

The rules of each shape:

* numbers are checked against the bounds of the integer type; a fraction or an exponent is
  never an integer;
* a record is an object, or an array of its fields in order; unknown fields of an object are
  skipped, a field given twice is refused, and a missing field is refused unless it is
  optional (then it is `null`), the fields being checked in declaration order;
* a choice is the name of a case without fields, or an object with a single member, whose
  key names the case and whose value is its content (`null` for a case without fields);
* a refused value is described in the words `invalid type: ..., expected ...` or
  `invalid value: ..., expected ...`, naming what was found and what the shape expects.

A refusal about meaning is placed where the decoder of the enclosing value stopped reading,
after its closing bracket if it has one; a choice does not place the refusals of its cases.
-/

namespace Backplane.Json

/-- A wire type. -/
inductive Shape where
  /-- Any JSON value; objects are sorted by key, the later of two equal keys winning. -/
  | any
  | text
  | flag
  /-- An unsigned integer of the given number of bits. -/
  | unsigned (bits : Nat)
  /-- A signed 64-bit integer. -/
  | signed
  /-- A date and time in RFC 3339. -/
  | instant
  | optional (inner : Shape)
  | list (item : Shape)
  /-- A record: what it is called in messages, and its fields in order. -/
  | record (label : String) (fields : List (String × Shape))
  /-- A choice: its name, and its cases, each with its fields or none for a bare name. -/
  | choice (name : String) (cases : List (String × Option (List (String × Shape))))
  deriving Inhabited

namespace Shape

/-- What a shape expects, in refusals. -/
def expecting : Shape → String
  | any => "any valid JSON value"
  | text => "a string"
  | flag => "a boolean"
  | unsigned bits => "u" ++ toString bits
  | signed => "i64"
  | instant => "a formatted date and time string or a unix timestamp"
  | optional _ => "option"
  | list _ => "a sequence"
  | record label _ => label
  | choice name _ => "enum " ++ name

end Shape

namespace Reader

/-- The description of a number in refusals. -/
def Num.unexpected : Num → String
  | .nat n => "integer `" ++ toString n ++ "`"
  | .neg i => "integer `" ++ toString i ++ "`"
  | .real _ f => "floating point `" ++ Shortest.floatText f ++ "`"

/-- A refusal of a value of the wrong kind. -/
def invalidType {α : Type} (found expected : String) : Reader α :=
  refuse ("invalid type: " ++ found ++ ", expected " ++ expected)

/-- A refusal of a value of the right kind out of its range. -/
def invalidValue {α : Type} (found expected : String) : Reader α :=
  refuse ("invalid value: " ++ found ++ ", expected " ++ expected)

/-- Read the value at the cursor only to describe it, and refuse it: the value is of the
wrong kind for `expected`. Arrays and objects are described without being read. -/
def refuseValue {α : Type} (expected : String) : Reader α := do
  let b ← peekOrNull
  let found ← (do
    if b == 110 then do advance; expectWord ull; pure "null"
    else if b == 116 then do advance; expectWord rue; pure "boolean `true`"
    else if b == 102 then do advance; expectWord alse; pure "boolean `false`"
    else if b == 45 || isDigit b then do pure (← number).unexpected
    else if b == 34 then do advance; pure ("string " ++ Literal.quote (← string))
    else if b == 91 then pure "sequence"
    else if b == 123 then pure "map"
    else failPeek .expectedValue : Reader String)
  placed (invalidType found expected)

/-- The number at the cursor, or a refusal of what stands there instead. -/
def numberOr (expected : String) : Reader Num := do
  match ← peekToken with
  | none => failPeek .eofValue
  | some b => if b == 45 || isDigit b then number else refuseValue expected

/-- An unsigned integer of `bits` bits. -/
def readUnsigned (bits : Nat) : Reader Json := placed do
  let expected := "u" ++ toString bits
  match ← numberOr expected with
  | .nat n => if n < Nat.pow 2 bits then pure (.int n) else invalidValue (Num.nat n).unexpected expected
  | n@(.neg _) => invalidValue n.unexpected expected
  | n@(.real _ _) => invalidType n.unexpected expected

/-- A signed 64-bit integer. -/
def readSigned : Reader Json := placed do
  match ← numberOr "i64" with
  | .nat n => if n < Nat.pow 2 63 then pure (.int n) else invalidValue (Num.nat n).unexpected "i64"
  | .neg i => pure (.int i)
  | n@(.real _ _) => invalidType n.unexpected "i64"

/-- A string, or a refusal in the words of `expected`. -/
def readString (expected : String) : Reader String := placed do
  match ← peekToken with
  | none => failPeek .eofValue
  | some b => if b == 34 then do advance; string else refuseValue expected

/-- A boolean. -/
def readFlag : Reader Json := placed do
  match ← peekToken with
  | none => failPeek .eofValue
  | some b =>
    if b == 116 then do advance; expectWord rue; pure (.bool true)
    else if b == 102 then do advance; expectWord alse; pure (.bool false)
    else refuseValue "a boolean"

/-- A date and time in RFC 3339, as its UTC text. -/
def readInstant : Reader Json := placed do
  let s ← readString (Shape.expecting .instant)
  match Rfc3339.parse s with
  | .ok m => pure (.str m.text)
  | .error e => refuse e.message

/-- `null`, the content of a case without fields. -/
def readUnit : Reader Unit := placed do
  match ← peekToken with
  | none => failPeek .eofValue
  | some b => if b == 110 then do advance; expectWord ull else refuseValue "unit"

/-- Names in backquotes, as a refusal lists the cases it knows. -/
def oneOf (names : List String) : String :=
  let q (n : String) := "`" ++ n ++ "`"
  match names with
  | [a] => q a
  | [a, b] => q a ++ " or " ++ q b
  | _ => "one of " ++ ", ".intercalate (names.map q)

/-- The name of a case of a choice. -/
def readCaseName (names : List String) : Reader String := placed do
  let s ← readString "variant identifier"
  if names.contains s then pure s
  else refuse ("unknown variant `" ++ s ++ "`, expected " ++ oneOf names)

/-- A number as a JSON value: an integer that fits, or the text of any other number. A number
written with a fraction or an exponent keeps its text; one written as an integer that does
not fit, or as `-0`, is a binary64 value and takes the text of one. -/
def Num.toJson : Num → Json
  | .nat n => .int n
  | .neg i => .int i
  | .real t f =>
    if t.toList.any (fun c => c == '.' || c == 'e' || c == 'E') then .dec t
    else .dec (Shortest.jsonText f)

/-- Set the `i`-th of a list of optional values. -/
def setSlot (slots : List (Option Json)) (i : Nat) (v : Json) : List (Option Json) :=
  slots.set i (some v)

/-- The fields of a record in order, from the values found; a missing field is `null` when it
is optional and refused otherwise. -/
def completeFields : List (String × Shape) → List (Option Json) → Reader (List (String × Json))
  | [], _ => pure []
  | (name, shape) :: rest, slots => do
    let v ← match slots.headD none, shape with
      | some v, _ => pure v
      | none, .optional _ => pure .null
      | none, _ => refuse ("missing field `" ++ name ++ "`")
    pure ((name, v) :: (← completeFields rest slots.tail))

mutual

/-- A value of a shape; `fuel` bounds the nesting and the members read. -/
def decode : Nat → Shape → Reader Json
  | 0, _ => failPeek .recursionLimit
  | fuel + 1, shape =>
    match shape with
    | .any => readAny fuel
    | .text => do pure (.str (← readString "a string"))
    | .flag => readFlag
    | .unsigned bits => readUnsigned bits
    | .signed => readSigned
    | .instant => readInstant
    | .optional inner => do
      match ← peekToken with
      | some 110 => do advance; expectWord ull; pure .null
      | _ => decode fuel inner
    | .list item => placed do
      match ← peekToken with
      | none => failPeek .eofValue
      | some b =>
        if b == 91 then do pure (.arr (← bracketed (readItems fuel item true []) closeList))
        else refuseValue "a sequence"
    | .record label fields => readRecord fuel label fields
    | .choice name cases => readChoice fuel name cases

/-- A dynamic value. -/
def readAny : Nat → Reader Json
  | 0 => failPeek .recursionLimit
  | fuel + 1 => placed do
    match ← peekToken with
    | none => failPeek .eofValue
    | some b =>
      if b == 110 then do advance; expectWord ull; pure .null
      else if b == 116 then do advance; expectWord rue; pure (.bool true)
      else if b == 102 then do advance; expectWord alse; pure (.bool false)
      else if b == 45 || isDigit b then do pure (Num.toJson (← number))
      else if b == 34 then do advance; pure (.str (← string))
      else if b == 91 then do pure (.arr (← bracketed (readItems fuel .any true []) closeList))
      else if b == 123 then do
        pure (.obj (Json.sortFields (← bracketed (readMembers fuel true []) closeObject)))
      else failPeek .expectedValue

/-- The elements of an array, the opening bracket taken. -/
def readItems : Nat → Shape → Bool → List Json → Reader (List Json)
  | 0, _, _, _ => failPeek .recursionLimit
  | fuel + 1, item, first, acc => do
    if ← moreItems first then
      let v ← decode fuel item
      readItems fuel item false (v :: acc)
    else pure acc.reverse

/-- The members of a dynamic object, the opening brace taken. -/
def readMembers : Nat → Bool → List (String × Json) → Reader (List (String × Json))
  | 0, _, _ => failPeek .recursionLimit
  | fuel + 1, first, acc => do
    if ← moreMembers first then
      let k ← key
      colon
      let v ← readAny fuel
      readMembers fuel false ((k, v) :: acc)
    else pure acc.reverse

/-- A record, as an object or as an array of its fields. -/
def readRecord : Nat → String → List (String × Shape) → Reader Json
  | 0, _, _ => failPeek .recursionLimit
  | fuel + 1, label, fields => placed do
    match ← peekToken with
    | none => failPeek .eofValue
    | some b =>
      if b == 91 then do
        pure (.obj (← bracketed (recordItems fuel label fields.length fields 0) closeList))
      else if b == 123 then do
        let slots ← bracketed (recordMembers fuel fields true (fields.map fun _ => none))
          closeObject
        pure (.obj slots)
      else refuseValue label

/-- The fields of a record given as an array, in order; too few elements are refused. -/
def recordItems : Nat → String → Nat → List (String × Shape) → Nat →
    Reader (List (String × Json))
  | 0, _, _, _, _ => failPeek .recursionLimit
  | _, _, _, [], _ => pure []
  | fuel + 1, label, total, (name, shape) :: rest, i => do
    if ← moreItems (i == 0) then
      let v ← decode fuel shape
      pure ((name, v) :: (← recordItems fuel label total rest (i + 1)))
    else
      refuse ("invalid length " ++ toString i ++ ", expected " ++ label ++ " with " ++
        toString total ++ (if total == 1 then " element" else " elements"))

/-- The members of a record given as an object, the opening brace taken. -/
def recordMembers : Nat → List (String × Shape) → Bool → List (Option Json) →
    Reader (List (String × Json))
  | 0, _, _, _ => failPeek .recursionLimit
  | fuel + 1, fields, first, slots => do
    if ← moreMembers first then
      let k ← key
      match fields.findIdx? (·.1 == k) with
      | some i =>
        if (slots.getD i none).isSome then refuse ("duplicate field `" ++ k ++ "`")
        colon
        let v ← decode fuel ((fields.getD i ("", .any)).2)
        recordMembers fuel fields false (setSlot slots i v)
      | none =>
        colon
        skipValue
        recordMembers fuel fields false slots
    else completeFields fields slots

/-- A choice: a bare case name, or an object whose single key names the case. -/
def readChoice : Nat → String → List (String × Option (List (String × Shape))) → Reader Json
  | 0, _, _ => failPeek .recursionLimit
  | fuel + 1, name, cases => do
    let names := cases.map (·.1)
    match ← peekToken with
    | none => failPeek .eofValue
    | some b =>
      if b == 34 then
        let c ← readCaseName names
        match cases.find? (·.1 == c) with
        | some (_, none) => pure (.str c)
        | _ => refuse "invalid type: unit variant, expected struct variant"
      else if b == 123 then
        enter
        advance
        let c ← readCaseName names
        colon
        let content ← match cases.find? (·.1 == c) with
          | some (_, some fields) =>
            readRecord fuel ("struct variant " ++ name ++ "::" ++ c) fields
          | _ => do readUnit; pure .null
        leave
        match ← peekToken with
        | some e =>
          if e == 125 then do
            advance
            pure (if content matches .null then .str c else .obj [(c, content)])
          else fail .expectedValue
        | none => fail .eofObject
      else failPeek .expectedValue

end

end Reader

/-- Decode a whole text as a value of a shape; only blanks may follow it. -/
def Shape.decodeBytes (shape : Shape) (bytes : ByteArray) : Except ReadError Json :=
  Reader.run' (do
    let v ← Reader.decode (bytes.size + 2 * depthLimit + 16) shape
    Reader.finish
    pure v) bytes

end Backplane.Json
