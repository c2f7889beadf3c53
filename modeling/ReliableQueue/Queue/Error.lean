import ReliableQueue.Span
import ReliableQueue.Store.Error

/-!
Failures of queue operations.
-/

namespace ReliableQueue.Queue

/-- Why a queue operation failed. -/
inductive Error where
  | noStore
  | emptyName
  | noExecutor
  | alreadyRunning
  /-- Recovery with this age could hand out a task that is still being executed. -/
  | maxAgeTooSmall (maxAge executionTimeout : Span)
  | store (cause : Store.Error)
deriving DecidableEq, Repr

namespace Error

def message : Error → String
  | .noStore => "store client must not be nil"
  | .emptyName => "queue key must not be empty"
  | .noExecutor => "executor must not be nil"
  | .alreadyRunning => "queue is already running"
  | .maxAgeTooSmall maxAge executionTimeout =>
      "max age " ++ maxAge.text ++ " must exceed execution timeout " ++ executionTimeout.text
  | .store cause => cause.message

/-- Whether the caller's configuration is at fault. -/
def isConfigError : Error → Bool
  | .noStore | .emptyName | .noExecutor | .maxAgeTooSmall .. => true
  | .alreadyRunning | .store _ => false

end Error

end ReliableQueue.Queue
