import ReliableQueue.Redis.Keyspace

/-!
A Redis server with two connections. A transaction queues the commands of its
connection and runs them together; if one of them could not be queued, it runs none.
-/

namespace ReliableQueue.Redis

/-- The connections of a client: one for pops that wait and one for all else. -/
inductive Connection where
  | main
  | blocking
deriving DecidableEq, Repr

def Connection.name : Connection → String
  | .main => "main"
  | .blocking => "blocking"

/-- A transaction that was begun and is not yet run. -/
structure Transaction where
  queued : List Command := []
  /-- Whether a command could not be queued. -/
  spoilt : Bool := false
deriving DecidableEq

structure Server where
  keys : Keyspace := .empty
  /-- Errors to be given in place of replies, by the names of commands, first one first. -/
  failures : List (String × String) := []
  transaction : Option Transaction := none

/-- A reply, or the replies to the commands of a transaction. -/
inductive Answer where
  | one (r : Reply)
  | all (rs : List Reply)
deriving DecidableEq

namespace Server

/-- The error that a command of this name is to be answered with, if there is one. -/
def takeFailure (s : Server) (name : String) : Option (String × Server) :=
  match s.failures.find? (·.1 = name) with
  | some (_, text) => some (text, { s with failures := s.failures.eraseP (·.1 = name) })
  | none => none

def failNext (s : Server) (name text : String) : Server :=
  { s with failures := s.failures ++ [(name, text)] }

/-- Runs commands one after the other, whatever each is answered with. -/
def runAll (k : Keyspace) : List Command → List Reply × Keyspace
  | [] => ([], k)
  | c :: rest =>
      let (reply, k) := k.run c
      let (replies, k) := runAll k rest
      (reply :: replies, k)

/-- A request that is to fail: a command is not queued, and a transaction is not run. -/
def refuse (s : Server) (via : Connection) : Request → Server
  | .command _ =>
      if via = .main then
        { s with transaction := s.transaction.map fun t => { t with spoilt := true } }
      else s
  | .exec => { s with transaction := none }
  | .multi | .discard => s

/-- Answers a request that is not to fail. -/
def accept (s : Server) (via : Connection) (r : Request) : Answer × Server :=
  let open? := if via = .main then s.transaction else none
  match r, open? with
  | .command c, none =>
      let (reply, keys) := s.keys.run c
      (.one reply, { s with keys })
  | .command c, some t =>
      (.one .queued, { s with transaction := some { t with queued := t.queued ++ [c] } })
  | .multi, none => (.one .ok, { s with transaction := some {} })
  | .multi, some _ => (.one (.error "ERR MULTI calls can not be nested"), s)
  | .exec, none => (.one (.error "ERR EXEC without MULTI"), s)
  | .exec, some t =>
      let s := { s with transaction := none }
      if t.spoilt then
        (.one (.error "EXECABORT Transaction discarded because of previous errors."), s)
      else
        let (replies, keys) := runAll s.keys t.queued
        (.all replies, { s with keys })
  | .discard, none => (.one (.error "ERR DISCARD without MULTI"), s)
  | .discard, some _ => (.one .ok, { s with transaction := none })

def serve (s : Server) (via : Connection) (r : Request) : Answer × Server :=
  match s.takeFailure r.name with
  | some (text, s) => (.one (.error text), s.refuse via r)
  | none => s.accept via r

end Server

end ReliableQueue.Redis
