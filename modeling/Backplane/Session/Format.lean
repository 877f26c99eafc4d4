import Backplane.Session.Fields
import Backplane.Wire

/-!
# Wire format requests

`json` writes a value in the JSON wire format, or reads bytes as a value of a wire type and
shows what was read.
-/

namespace Backplane.Session

open Json

/-- The value of field `k` read as a value of a wire type, or why it is not one. A record
may be given as an array of its fields in order; an array with more elements than the record
has fields is refused once the fields it does hold have been read. -/
def fieldAs (k : String) (item : Shape) (v : Json) : Checked Json :=
  let read (v : Json) : Checked Json :=
    match item.decodeBytes (Wire.encode v.normalize) with
    | .ok w => .ok w
    | .error e => .error (k ++ ": " ++ e.fault.message)
  match item, v with
  | .record _ fields, .arr xs =>
    if fields.length < xs.length then do
      let _ ← read (.arr (xs.take fields.length))
      .error (k ++ ": invalid length " ++ toString xs.length ++ ", expected fewer elements in array")
    else read v
  | _, _ => read v

/-- A value read as a value of a wire type, or why it is not one. -/
def valueAs (item : Shape) (v : Json) : Checked Json := fieldAs "value" item v

/-- The payload of a value of the item type, or why the value is not one. -/
def itemPayload (item : Shape) (v : Json) : Checked (List UInt8) := do
  return (Wire.encode (← valueAs item v)).toList

/-- The answer to a `json` request. -/
def formatAnswer (req : Json) : Checked Json := do
  match ← str req "mode" with
  | "encode" =>
    let v ← need req "value"
    let written ← match ← strOr req "type" "value" with
      | "value" => pure v.normalize
      | "string" => valueAs .text v
      | "task" => valueAs Wire.task v
      | t => throw ("unknown type '" ++ t ++ "'")
    return .obj [("bytes", bytesJson (Wire.encode written)), ("serializer", .str Wire.formatName)]
  | "decode" =>
    let b ← bytes req "bytes"
    let t ← str req "type"
    match Wire.byName t with
    | none => throw ("unknown type '" ++ t ++ "'")
    | some shape =>
      match Wire.decode shape b with
      | .ok v => return .obj [("value", v)]
      | .error e => return coreErrorJson e
  | m => throw ("unknown mode '" ++ m ++ "'")

end Backplane.Session
