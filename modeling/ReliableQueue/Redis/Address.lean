import ReliableQueue.Redis.Error
import ReliableQueue.Redis.Url

/-!
What an address says about a server: where it is, which of its databases is meant, who
connects, and which other servers belong to it. The end of the scheme tells how servers
belong together.
-/

namespace ReliableQueue.Redis

structure Node where
  host : String
  port : Nat
deriving DecidableEq, Repr

/-- By host, then by port. -/
def Node.isBefore (a b : Node) : Bool :=
  decide (a.host < b.host) || (a.host = b.host && a.port < b.port)

structure Address where
  node : Node
  others : List Node := []
  /-- The service that watched servers provide. -/
  service : Option String := none
  user : Option String := none
  password : Option String := none
  database : Option Nat := none
deriving DecidableEq, Repr

namespace Url

def notANumber : Error := ⟨.parse, "Invalid integer string."⟩

/-- A number below a bound. -/
def number (bound : Nat) (s : String) : Except Error Nat :=
  match (Text.word64? s).filter (· < bound) with
  | some n => .ok n
  | none => .error notANumber

def node (u : Url) (defaultPort : Nat) : Except Error Node :=
  match u.host with
  | some host => .ok ⟨host, u.port.getD defaultPort⟩
  | none => .error ⟨.config, "Invalid or missing host."⟩

/-- The number of a database is all of a path. -/
def database (u : Url) : Except Error (Option Nat) :=
  match u.path with
  | [] | [""] => .ok none
  | [name] => (number UInt8.size name).map some
  | _ => .error ⟨.config, "Invalid database path."⟩

/-- A part of the credentials; an empty one does not count. -/
def credential (written : List Char) : Except Error (Option String) :=
  match Text.textOfBytes? (Text.percentDecode written) with
  | some s => .ok (if s.isEmpty then none else some s)
  | none => .error ⟨.parse, "Invalid UTF-8 string."⟩

/-- The parameters that name further servers. -/
def others (u : Url) : Except Error (List Node) :=
  (u.parameters.filter (·.1 = "node")).mapM fun (_, s) =>
    match s.splitOn ":" with
    | [host, port] => (number UInt16.size port).map fun port => ⟨host, port⟩
    | _ => .error ⟨.config, "Invalid host:port for cluster node: " ++ s⟩

def service (u : Url) : Except Error String :=
  match u.parameters.lookup "sentinelServiceName" with
  | some s => .ok s
  | none => .error ⟨.config, "Invalid or missing sentinel service name query parameter."⟩

end Url

namespace Address

/-- One server. -/
def single (u : Url) : Except Error Address := do
  let node ← u.node 6379
  let database ← u.database
  let user ← Url.credential u.user
  let password ← Url.credential u.password
  return { node, user, password, database }

/-- Servers that share their keys. -/
def cluster (u : Url) : Except Error Address := do
  let node ← u.node 6379
  let others ← u.others
  let user ← Url.credential u.user
  let password ← Url.credential u.password
  return { node, others, user, password }

/-- A server that others watch. -/
def watched (u : Url) : Except Error Address := do
  let node ← u.node 26379
  let others ← u.others
  let service ← u.service
  let user ← Url.credential u.user
  let password ← Url.credential u.password
  let database ← u.database
  return { node, others, service := some service, user, password, database }

/-- Reads an address. -/
def parse (s : String) : Except Error Address :=
  match Url.parse s with
  | .error fault => .error ⟨.url, fault.text⟩
  | .ok u =>
    if u.scheme.endsWith "-cluster" then cluster u
    else if u.scheme.endsWith "-sentinel" then watched u
    else if u.scheme.endsWith "+unix" then .error ⟨.config, "Missing unix-socket feature."⟩
    else single u

end Address

end ReliableQueue.Redis
