import Backplane.Session.Fields
import Backplane.Jobs.Result

/-!
# Job result requests

`job_result` builds a job result in one of the ways a job can produce one and shows it.
-/

namespace Backplane.Session

open Json Jobs

/-- A cause: one message, or a chain of them, the outermost first. -/
def causeOf (req : Json) : Checked Cause := do
  match ← need req "cause" with
  | .str s => return ⟨s, []⟩
  | .arr (x :: xs) =>
    let msgs ← (x :: xs).mapM fun
      | .str s => .ok s
      | _ => .error "cause must be a string or a list of strings"
    match msgs with
    | m :: ms => return ⟨m, ms⟩
    | [] => throw "empty cause"
  | .arr [] => throw "empty cause"
  | _ => throw "cause must be a string or a list of strings"

/-- A job result as an object: its kind, message, text and cause. -/
def resultJson (r : JobResult) : Json :=
  .obj [("kind", .str r.kindName), ("message", ofOption .str r.message),
    ("display", .str r.text), ("has_cause", .bool r.hasCause)]

/-- The answer to a `job_result` request. -/
def outcomeAnswer (req : Json) : Checked Json := do
  let r ← match ← str req "make" with
    | "success" => pure (.success none)
    | "success_with" => do pure (.success (some (← str req "message")))
    | "failed" => do pure (.failed (← str req "message") none)
    | "failed_with" => do
      let m ← str req "message"
      pure (.failed m (some (← causeOf req)))
    | "cancelled" => do pure (.cancelled (← str req "message"))
    | "from_error" => do pure (JobResult.ofCause (← causeOf req))
    | "from_ok" => pure (.success none)
    | "from_err" => do pure (JobResult.ofCause (← causeOf req))
    | m => throw ("unknown make '" ++ m ++ "'")
  return .obj [("kind", .str r.kindName), ("message", ofOption .str r.message),
    ("display", .str r.text), ("has_cause", .bool r.hasCause),
    ("is_success", .bool r.isSuccess), ("is_failed", .bool r.isFailed),
    ("is_cancelled", .bool r.isCancelled)]

end Backplane.Session
