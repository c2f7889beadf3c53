import ReliableQueue.Text.Quoted

/-!
Failures of a store and the places at which a store can be told to fail.
-/

namespace ReliableQueue.Store

/-- A store access that can be made to fail. -/
inductive FaultPoint where
  | blpop | lpush | hget | zadd | zrangebyscore | exec
deriving DecidableEq, Repr

def FaultPoint.name : FaultPoint → String
  | .blpop => "blpop"
  | .lpush => "lpush"
  | .hget => "hget"
  | .zadd => "zadd"
  | .zrangebyscore => "zrangebyscore"
  | .exec => "exec"

def FaultPoint.all : List FaultPoint := [.blpop, .lpush, .hget, .zadd, .zrangebyscore, .exec]

/-- Why a store access failed. -/
inductive Error where
  /-- The server or the connection to it. -/
  | redis (reason : String)
  /-- A batch was rejected. -/
  | transaction (reason : String)
  /-- A failure that was asked for; the place is a fault point's name. -/
  | injected (place : String)
deriving DecidableEq, Repr

namespace Error

def message : Error → String
  | .redis reason => "Redis error: " ++ reason
  | .transaction reason => "Transaction aborted: " ++ reason
  | .injected place => "Injected failure: " ++ place

/-- The diagnostic form. -/
def debug : Error → String
  | .redis reason => "Redis(" ++ Text.quoted reason ++ ")"
  | .transaction reason => "Transaction(" ++ Text.quoted reason ++ ")"
  | .injected place => "Injected(" ++ Text.quoted place ++ ")"

end Error

end ReliableQueue.Store
