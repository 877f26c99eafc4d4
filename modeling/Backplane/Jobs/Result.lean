/-!
# Job results

A job ends in success (with or without a message), in failure (with a message and perhaps a
cause), or cancelled (with a message). A cause is a chain of error messages, the outermost
first; shown in full it is the messages joined by `: `.

When a job does not succeed, its entry is abandoned with a reason: the message of a failure,
followed by its cause when there is one, or `cancelled: ` and the message.
-/

namespace Backplane.Jobs

/-- A chain of error messages, the outermost first; never empty. -/
structure Cause where
  outer : String
  inner : List String
  deriving Repr, Inhabited, DecidableEq

/-- The messages of a chain joined by `: `. -/
def Cause.text (c : Cause) : String := ": ".intercalate (c.outer :: c.inner)

/-- How a job ended. -/
inductive JobResult where
  | success (message : Option String)
  | failed (message : String) (cause : Option Cause)
  | cancelled (message : String)
  deriving Repr, Inhabited, DecidableEq

namespace JobResult

/-- The failure that an error is: its outermost message, with the error as cause. -/
def ofCause (c : Cause) : JobResult := failed c.outer (some c)

/-- Whether the job succeeded. -/
def isSuccess : JobResult → Bool
  | success _ => true
  | _ => false

/-- Whether the job failed. -/
def isFailed : JobResult → Bool
  | failed _ _ => true
  | _ => false

/-- Whether the job was cancelled. -/
def isCancelled : JobResult → Bool
  | cancelled _ => true
  | _ => false

/-- The message, absent only for a plain success. -/
def message : JobResult → Option String
  | success m => m
  | failed m _ => some m
  | cancelled m => some m

/-- Whether the result carries a cause. -/
def hasCause : JobResult → Bool
  | failed _ (some _) => true
  | _ => false

/-- The reason given when the entry of a job that did not succeed is abandoned. -/
def abandonReason : JobResult → Option String
  | success _ => none
  | failed m (some c) => some (m ++ ": " ++ c.text)
  | failed m none => some m
  | cancelled m => some ("cancelled: " ++ m)

/-- The text of a result. -/
def text : JobResult → String
  | success none => "success"
  | success (some m) => "success: " ++ m
  | r@(failed _ _) => "failed: " ++ r.abandonReason.getD ""
  | cancelled m => "cancelled: " ++ m

/-- The name of the kind of result. -/
def kindName : JobResult → String
  | success _ => "success"
  | failed _ _ => "failed"
  | cancelled _ => "cancelled"

end JobResult

end Backplane.Jobs
