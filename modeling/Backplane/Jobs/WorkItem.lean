import Backplane.Jobs.Result
import Backplane.Wire
import Backplane.Time.Civil

/-!
# Work items

A work item is an envelope on a queue: its own id, the kind of handler it is for and the
payload version it was written with, the payload as JSON bytes, whether it wants progress
reports, and when it was made. Progress reports carry a percentage, at most 100.
-/

namespace Backplane.Jobs

/-- The envelope of a work item, as it is stored: its fields in their wire order. -/
def envelopeJson (id kind : String) (version : Nat) (payload : List UInt8) (progress : Bool)
    (createdAt : Stamp) : Json :=
  .obj [("id", .str id), ("kind", .str kind), ("version", Json.nat version),
    ("payload", .arr (payload.map fun b => Json.nat b.toNat)), ("send_progress", .bool progress),
    ("created_at", .str createdAt.text)]

/-- A progress report: a percentage, at most 100, and an optional message. -/
def statusJson (id kind : String) (progress : Nat) (message : Option String) : Json :=
  .obj [("work_item_id", .str id), ("kind", .str kind), ("progress", Json.nat (Nat.min progress 100)),
    ("message", match message with | some m => .str m | none => .null)]

/-- The payload bytes of a stored envelope. -/
def envelopeBytes (data : Json) : List UInt8 :=
  match data.field? "payload" with
  | some (.arr xs) => xs.filterMap fun
    | .int i => some (UInt8.ofNat i.toNat)
    | _ => none
  | _ => []

end Backplane.Jobs
