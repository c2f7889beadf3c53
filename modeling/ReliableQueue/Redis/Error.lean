/-!
Failures of a Redis client, by what they concern.
-/

namespace ReliableQueue.Redis

inductive ErrorKind where
  | url | config | connection | sentinel | timeout | parse | argument | authentication | unknown
deriving DecidableEq, Repr

def ErrorKind.name : ErrorKind → String
  | .url => "Url Error"
  | .config => "Config Error"
  | .connection => "IO Error"
  | .sentinel => "Sentinel Error"
  | .timeout => "Timeout Error"
  | .parse => "Parse Error"
  | .argument => "Invalid Argument"
  | .authentication => "Authentication Error"
  | .unknown => "Unknown Error"

structure Error where
  kind : ErrorKind
  details : String
deriving DecidableEq, Repr

namespace Error

def message (e : Error) : String := e.kind.name ++ ": " ++ e.details

/-- A server's error reply, whose first word tells what it concerns. -/
def ofReply (text : String) : Error :=
  match String.ofList (text.toList.takeWhile (· ≠ ' ')) with
  | "WRONGTYPE" => ⟨.argument, text⟩
  | "NOAUTH" => ⟨.authentication, text⟩
  | _ => ⟨.unknown, text⟩

def unexpectedReply : Error := ⟨.parse, "Could not convert the reply."⟩

def networkUnreachable : Error :=
  ⟨.connection,
    "Os \x7b code: 101, kind: NetworkUnreachable, message: \"Network is unreachable\" \x7d"⟩

def nameNotResolved : Error :=
  ⟨.connection,
    "Custom \x7b kind: Uncategorized, error: \"failed to lookup address information: "
      ++ "Temporary failure in name resolution\" \x7d"⟩

def noWatcher : Error := ⟨.sentinel, "Failed to connect to all sentinel nodes."⟩

def boundNotANumber : Error := ⟨.unknown, "Cannot use NaN as zrange field."⟩

end Error

end ReliableQueue.Redis
