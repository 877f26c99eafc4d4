/-!
# Errors

Each service has its own error type, and an error of one service may carry an error of a
service below it: a lock error may carry a cache error, a job error a queue or a lock error.
Every error has a message, which for a carrying error wraps the message of the error it
carries, and a kind: the path of error names from the outermost inward, joined by `/`.
-/

namespace Backplane

/-- Errors of the core services: the wire format and the message bus. -/
inductive CoreError where
  /-- A value could not be written or read in a wire format. -/
  | serialization (format : String) (message : String)
  | busUnavailable (message : String)
  | busClosed
  deriving Repr, Inhabited, DecidableEq

/-- Errors of a cache. -/
inductive CacheError where
  | unavailable (message : String)
  /-- The value stored under a key is not a decimal integer. -/
  | notANumber (key : String)
  /-- A counter left the signed 64-bit range. -/
  | overflow (key : String)
  | core (e : CoreError)
  deriving Repr, Inhabited, DecidableEq

/-- Errors of a lock provider. -/
inductive LockError where
  | cache (e : CacheError)
  | bus (e : CoreError)
  | invalidOptions (message : String)
  deriving Repr, Inhabited, DecidableEq

/-- Errors of a queue. -/
inductive QueueError where
  | serialization (e : CoreError)
  | backend (message : String)
  | invalidOptions (message : String)
  deriving Repr, Inhabited, DecidableEq

/-- Errors of the job runner. -/
inductive JobError where
  | queue (e : QueueError)
  | lock (e : LockError)
  | core (e : CoreError)
  /-- A second handler for a kind of work item. -/
  | duplicateHandler (kind : String)
  | invalidOptions (message : String)
  | internal (message : String)
  deriving Repr, Inhabited, DecidableEq

namespace CoreError

/-- The message of a core error. -/
def message : CoreError → String
  | serialization format m => "Serialization error (" ++ format ++ "): " ++ m
  | busUnavailable m => "Message bus unavailable: " ++ m
  | busClosed => "Message bus is closed"

/-- The kind of a core error. -/
def kind : CoreError → String
  | serialization _ _ => "CoreError::Serialization"
  | busUnavailable _ => "CoreError::BusUnavailable"
  | busClosed => "CoreError::BusClosed"

end CoreError

namespace CacheError

/-- The message of a cache error; a core error is shown as it is. -/
def message : CacheError → String
  | unavailable m => "Cache backend unavailable: " ++ m
  | notANumber key => "Value stored at '" ++ key ++ "' is not an integer"
  | overflow key => "Counter at '" ++ key ++ "' overflowed"
  | core e => e.message

/-- The kind of a cache error. -/
def kind : CacheError → String
  | unavailable _ => "CacheError::Unavailable"
  | notANumber _ => "CacheError::NotANumber"
  | overflow _ => "CacheError::Overflow"
  | core e => "CacheError::Core/" ++ e.kind

end CacheError

namespace LockError

/-- The message of a lock error. -/
def message : LockError → String
  | cache e => "Lock backend error: " ++ e.message
  | bus e => "Lock notification error: " ++ e.message
  | invalidOptions m => "Invalid lock options: " ++ m

/-- The kind of a lock error. -/
def kind : LockError → String
  | cache e => "LockError::Cache/" ++ e.kind
  | bus e => "LockError::Bus/" ++ e.kind
  | invalidOptions _ => "LockError::InvalidOptions"

end LockError

namespace QueueError

/-- The message of a queue error. -/
def message : QueueError → String
  | serialization e => "Serialization error: " ++ e.message
  | backend m => "Queue backend unavailable: " ++ m
  | invalidOptions m => "Invalid queue options: " ++ m

/-- The kind of a queue error. -/
def kind : QueueError → String
  | serialization e => "QueueError::Serialization/" ++ e.kind
  | backend _ => "QueueError::Backend"
  | invalidOptions _ => "QueueError::InvalidOptions"

end QueueError

namespace JobError

/-- The message of a job error; a core error is shown as it is. -/
def message : JobError → String
  | queue e => "Queue error: " ++ e.message
  | lock e => "Lock error: " ++ e.message
  | core e => e.message
  | duplicateHandler k => "Work item handler already registered for kind '" ++ k ++ "'"
  | invalidOptions m => "Invalid runner options: " ++ m
  | internal m => "Internal error: " ++ m

/-- The kind of a job error. -/
def kind : JobError → String
  | queue e => "JobError::Queue/" ++ e.kind
  | lock e => "JobError::Lock/" ++ e.kind
  | core e => "JobError::Core/" ++ e.kind
  | duplicateHandler _ => "JobError::DuplicateHandler"
  | invalidOptions _ => "JobError::InvalidOptions"
  | internal _ => "JobError::Internal"

end JobError

end Backplane
