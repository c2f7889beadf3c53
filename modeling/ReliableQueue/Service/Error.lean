import ReliableQueue.Config.Error

/-!
Failures of the worker process, with the codes under which they are logged.
-/

namespace ReliableQueue.Service

inductive Error where
  | redis (reason : String)
  | queue (reason : String)
  | config (reason : String)
deriving DecidableEq, Repr

namespace Error

def message : Error → String
  | .redis reason => "Redis error: " ++ reason
  | .queue reason => "Queue error: " ++ reason
  | .config reason => "Configuration error: " ++ reason

def code : Error → String
  | .redis _ => "REDIS_ERROR"
  | .queue _ => "QUEUE_ERROR"
  | .config _ => "CONFIG_ERROR"

/-- Whether starting again cannot help. -/
def isFatal : Error → Bool
  | .config _ => true
  | .redis _ | .queue _ => false

/-- The diagnostic form. -/
def debug : Error → String
  | .redis reason => "Redis(" ++ Text.quoted reason ++ ")"
  | .queue reason => "Queue(" ++ Text.quoted reason ++ ")"
  | .config reason => "Config(" ++ Text.quoted reason ++ ")"

def ofConfig (e : Config.Error) : Error := .config e.text

end Error

end ReliableQueue.Service
