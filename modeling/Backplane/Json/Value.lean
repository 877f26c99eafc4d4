/-!
JSON documents: the value tree, and its compact written form.

Numbers keep apart what the wire keeps apart. An integer literal is an `Int`; a number
written with a fraction or an exponent keeps its text, so that writing it again reproduces
the same characters. Objects are lists of fields: a dynamic value keeps its fields sorted
by key (see `Json.normalize`), while a record written field by field keeps the order of
its fields.

The compact form escapes a quote, a backslash and the control characters below U+0020
(the short forms `\b \f \n \r \t`, the others as `\u00xx` with lower-case hex digits)
and nothing else: DEL and every non-ASCII character are written as they are.
-/

namespace Backplane

/-- A JSON value. -/
inductive Json where
  | null
  | bool (b : Bool)
  /-- An integer literal. -/
  | int (i : Int)
  /-- A number written with a fraction or an exponent, kept as written. -/
  | dec (text : String)
  | str (s : String)
  | arr (items : List Json)
  | obj (fields : List (String × Json))
  deriving Inhabited, Repr

namespace Json

/-- Lower-case hexadecimal digit of a value below 16. -/
def hexDigit (n : Nat) : Char :=
  if n < 10 then Char.ofNat (48 + n) else Char.ofNat (87 + n)

/-- The escaped form of one character inside a quoted string. -/
def escapeChar (c : Char) : String :=
  if c = '"' then "\\\""
  else if c = '\\' then "\\\\"
  else if c.toNat < 0x20 then
    if c = '\n' then "\\n"
    else if c = '\r' then "\\r"
    else if c = '\t' then "\\t"
    else if c.toNat = 8 then "\\b"
    else if c.toNat = 12 then "\\f"
    else "\\u00" ++ String.singleton (hexDigit (c.toNat / 16)) ++ String.singleton (hexDigit (c.toNat % 16))
  else String.singleton c

/-- A string in double quotes with the escapes of the compact form. -/
def quote (s : String) : String :=
  "\"" ++ String.join (s.toList.map escapeChar) ++ "\""

mutual
/-- The compact written form: no blank between tokens. -/
def render : Json → String
  | null => "null"
  | bool true => "true"
  | bool false => "false"
  | int i => toString i
  | dec t => t
  | str s => quote s
  | arr items => "[" ++ renderItems items ++ "]"
  | obj fields => "\x7b" ++ renderFields fields ++ "\x7d"

/-- The elements of an array, separated by commas. -/
def renderItems : List Json → String
  | [] => ""
  | [x] => render x
  | x :: rest => render x ++ "," ++ renderItems rest

/-- The fields of an object, separated by commas. -/
def renderFields : List (String × Json) → String
  | [] => ""
  | [(k, v)] => quote k ++ ":" ++ render v
  | (k, v) :: rest => quote k ++ ":" ++ render v ++ "," ++ renderFields rest
end

/-- Insert a field into a list sorted by key; a field already there takes the new value. -/
def insertSorted (k : String) (v : Json) : List (String × Json) → List (String × Json)
  | [] => [(k, v)]
  | (k', v') :: rest =>
    if k = k' then (k, v) :: rest
    else if k < k' then (k, v) :: (k', v') :: rest
    else (k', v') :: insertSorted k v rest

/-- The fields of a dynamic object: sorted by key, and of two fields with one key the later. -/
def sortFields (fields : List (String × Json)) : List (String × Json) :=
  fields.foldl (fun acc kv => insertSorted kv.1 kv.2 acc) []

mutual
/-- A dynamic value: every object, at any depth, has its fields sorted by key. -/
def normalize : Json → Json
  | arr items => arr (normalizeItems items)
  | obj fields => obj (sortFields (normalizeFields fields))
  | v => v

/-- `normalize` on each element. -/
def normalizeItems : List Json → List Json
  | [] => []
  | x :: rest => normalize x :: normalizeItems rest

/-- `normalize` on each field value. -/
def normalizeFields : List (String × Json) → List (String × Json)
  | [] => []
  | (k, v) :: rest => (k, normalize v) :: normalizeFields rest
end

/-- The value of a field of an object; `none` for a missing field or a value that is no object. -/
def field? (v : Json) (key : String) : Option Json :=
  match v with
  | obj fields => (fields.find? (·.1 == key)).map (·.2)
  | _ => none

def record (fields : List (String × Json)) : Json := obj fields

/-- `some` as the value, `none` as `null`. -/
def ofOption {α : Type} (f : α → Json) : Option α → Json
  | some a => f a
  | none => null

/-- A natural number as an integer literal. -/
def nat (n : Nat) : Json := int n

end Json

end Backplane
