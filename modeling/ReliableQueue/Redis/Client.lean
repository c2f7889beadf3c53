import ReliableQueue.Redis.Address
import ReliableQueue.Redis.Server
import ReliableQueue.Store.Error

/-!
A store on a Redis server. Pops, which may hold their connection, have one of their
own; batches run as transactions. What becomes of a pop whose time runs out is left to
the library that reads the replies.
-/

namespace ReliableQueue.Redis

open Text (Bytes)

/-- What a client meets when it opens its connections. -/
inductive Network where
  | unreachable
  | reachable (server : Server)

/-- Why a server cannot be reached where no network is. -/
def Node.failure (n : Node) : Error :=
  if Host.isKnown n.host then .networkUnreachable else .nameNotResolved

/-- Why none of the servers of an address can be reached: the last one in their order
counts, unless they only watch the one that is wanted. -/
def Address.failure (a : Address) : Error :=
  if a.service.isSome then .noWatcher
  else (a.others.foldl (fun last n => if last.isBefore n then n else last) a.node).failure

structure Client where
  server : Server
  /-- What was sent so far, latest first. -/
  sent : List (Connection × Request) := []

namespace Client

/-- Connects to the server at an address. -/
def connect (n : Network) (url : String) : Except Error Client :=
  match Address.parse url with
  | .error e => .error e
  | .ok address =>
    match n with
    | .unreachable => .error address.failure
    | .reachable server => .ok { server }

def send (c : Client) (via : Connection) (r : Request) : Answer × Client :=
  let (answer, server) := c.server.serve via r
  (answer, { server, sent := (via, r) :: c.sent })

def sendAll (c : Client) : List Request → List Answer × Client
  | [] => ([], c)
  | r :: rest =>
      let (answer, c) := c.send .main r
      let (answers, c) := c.sendAll rest
      (answer :: answers, c)

/-- Sends one command and reads its reply, which may itself be an error. -/
def ask {α : Type} (c : Client) (via : Connection) (command : Command)
    (read : Reply → Except Error α) : Except Store.Error α × Client :=
  let (answer, c) := c.send via (.command command)
  let result : Except Error α := match answer with
    | .one (.error text) => .error (.ofReply text)
    | .one reply => read reply
    | .all _ => .error .unexpectedReply
  (result.mapError fun e => .redis e.message, c)

def number : Reply → Except Error Nat
  | .integer n => .ok n
  | _ => .error .unexpectedReply

def written (r : Reply) : Except Error Unit := (number r).map fun _ => ()

/-- Reads the reply to a pop; `inVain` is what the library makes of none. -/
def popped (inVain : Except Error (Option String)) : Reply → Except Error (Option String)
  | .texts [_, value] => .ok (some value)
  | .nothing => inVain
  | _ => .error .unexpectedReply

def field : Reply → Except Error (Option Bytes)
  | .nothing => .ok none
  | .bytes b => .ok (some b)
  | _ => .error .unexpectedReply

def members : Reply → Except Error (List String)
  | .texts ss => .ok ss
  | _ => .error .unexpectedReply

def blpop (c : Client) (inVain : Except Error (Option String)) (key : String) (timeout : Span) :
    Except Store.Error (Option String) × Client :=
  c.ask .blocking (.blpop key (.ofSpan timeout)) (popped inVain)

def lpush (c : Client) (key value : String) : Except Store.Error Unit × Client :=
  c.ask .main (.lpush key value) written

def llen (c : Client) (key : String) : Except Store.Error Nat × Client :=
  c.ask .main (.llen key) number

def hget (c : Client) (key name : String) : Except Store.Error (Option Bytes) × Client :=
  c.ask .main (.hget key name) field

def zadd (c : Client) (key member : String) (score : Binary64) : Except Store.Error Unit × Client :=
  c.ask .main (.zadd key score member) written

/-- A bound that is not a number is refused before anything is sent. -/
def zrangebyscore (c : Client) (key : String) (max : Binary64) :
    Except Store.Error (List String) × Client :=
  if max.isNaN then (.error (.redis Error.boundNotANumber.message), c)
  else c.ask .main (.zrangebyscore key max) members

def zcard (c : Client) (key : String) : Except Store.Error Nat × Client :=
  c.ask .main (.zcard key) number

/-- The requests of a transaction. -/
def transaction (commands : List Store.Command) : List Request :=
  .multi :: commands.map (fun c => .command (.ofStore c)) ++ [.exec]

/-- An error that keeps a transaction from being run. -/
def abortion? (answers : List Answer) : Option String :=
  answers.findSome? fun answer =>
    match answer with
    | .one r => r.error?
    | .all _ => none

/-- An error of a command in a transaction that was run. -/
def inner? (answers : List Answer) : Option String :=
  answers.findSome? fun answer =>
    match answer with
    | .one _ => none
    | .all rs => rs.findSome? Reply.error?

/-- Runs a batch as one transaction, which is given up if it could not be run. -/
def exec (c : Client) (batch : Store.Batch) : Except Store.Error Unit × Client :=
  if batch.isEmpty then (.ok (), c)
  else
    let (answers, c) := c.sendAll (transaction batch.commands)
    let aborted (text : String) : Except Store.Error Unit :=
      .error (.transaction (Error.ofReply text).message)
    match abortion? answers with
    | some text => (aborted text, (c.send .main .discard).2)
    | none =>
      match inner? answers with
      | some text => (aborted text, c)
      | none => (.ok (), c)

end Client

end ReliableQueue.Redis
