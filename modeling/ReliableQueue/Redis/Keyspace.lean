import ReliableQueue.Redis.Command
import ReliableQueue.Store.Contents

/-!
The keys of a Redis server. All types of values share one space of keys, a command on
a key of another type fails, and a key whose value becomes empty is gone.
-/

namespace ReliableQueue.Redis

open Text (Bytes)

inductive Value where
  | list (values : List String)
  | sorted (scores : Table Binary64)
  | hash (fields : Table Bytes)
deriving DecidableEq

def Value.isEmpty : Value → Bool
  | list values => values.isEmpty
  | sorted scores => scores.isEmpty
  | hash fields => fields.isEmpty

abbrev Keyspace := Table Value

inductive Reply where
  | ok
  | queued
  | nothing
  | integer (n : Nat)
  | bytes (b : Bytes)
  | texts (ss : List String)
  | error (text : String)
deriving DecidableEq

def Reply.error? : Reply → Option String
  | .error text => some text
  | _ => none

def wrongType : String :=
  "WRONGTYPE Operation against a key holding the wrong kind of value"

def notANumber : String := "ERR value is not a valid float"

namespace Keyspace

/-- The keys with what a store holds; of two values for one key a hash stays rather than
a sorted set, and a sorted set rather than a list. -/
def ofContents (c : Store.Contents) : Keyspace :=
  .ofList (c.lists.entries.map (fun e => (e.1, Value.list e.2))
    ++ c.sorted.entries.map (fun e => (e.1, Value.sorted e.2))
    ++ c.hashes.entries.map (fun e => (e.1, Value.hash e.2)))

/-- The part of the entries that a function keeps. -/
def select {α : Type} (k : Keyspace) (f : Value → Option α) : Table α :=
  .ofList (k.entries.filterMap fun e => (f e.2).map (e.1, ·))

/-- What the keys hold, type by type. -/
def contents (k : Keyspace) : Store.Contents where
  lists := k.select fun v => match v with | .list values => some values | _ => none
  sorted := k.select fun v => match v with | .sorted scores => some scores | _ => none
  hashes := k.select fun v => match v with | .hash fields => some fields | _ => none

def store (k : Keyspace) (key : String) (v : Value) : Keyspace :=
  if v.isEmpty then k.erase key else k.insert key v

/-- Works on a list; a key that is not there is an empty one. -/
def onList (k : Keyspace) (key : String) (act : List String → Reply × List String) :
    Reply × Keyspace :=
  let go (values : List String) : Reply × Keyspace :=
    let (reply, values) := act values
    (reply, k.store key (.list values))
  match k.get? key with
  | none => go []
  | some (.list values) => go values
  | some _ => (.error wrongType, k)

def onSorted (k : Keyspace) (key : String) (act : Table Binary64 → Reply × Table Binary64) :
    Reply × Keyspace :=
  let go (scores : Table Binary64) : Reply × Keyspace :=
    let (reply, scores) := act scores
    (reply, k.store key (.sorted scores))
  match k.get? key with
  | none => go .empty
  | some (.sorted scores) => go scores
  | some _ => (.error wrongType, k)

def onHash (k : Keyspace) (key : String) (act : Table Bytes → Reply × Table Bytes) :
    Reply × Keyspace :=
  let go (fields : Table Bytes) : Reply × Keyspace :=
    let (reply, fields) := act fields
    (reply, k.store key (.hash fields))
  match k.get? key with
  | none => go .empty
  | some (.hash fields) => go fields
  | some _ => (.error wrongType, k)

/-- By score, then by member; the two zeros are one score. -/
def rangeOrder (a b : String × Binary64) : Bool :=
  decide (a.2.orderKey < b.2.orderKey) ||
    (a.2.orderKey = b.2.orderKey && decide (a.1 ≤ b.1))

def range (scores : Table Binary64) (max : Binary64) : List String :=
  ((scores.entries.filter fun e => e.2.le max).mergeSort rangeOrder).map Prod.fst

/-- How many of a thing that was or was not there are new. -/
def added (present : Bool) : Reply := .integer (if present then 0 else 1)

def removed (present : Bool) : Reply := .integer (if present then 1 else 0)

/-- Runs a command. A pop from a list that is empty has waited in vain. -/
def run (k : Keyspace) : Command → Reply × Keyspace
  | .rpush key values => k.onList key fun old =>
      let new := old ++ values
      (.integer new.length, new)
  | .lpush key value => k.onList key fun old => (.integer (old.length + 1), value :: old)
  | .llen key => k.onList key fun old => (.integer old.length, old)
  | .blpop key _ => k.onList key fun old =>
      match old with
      | [] => (.nothing, [])
      | value :: rest => (.texts [key, value], rest)
  | .hset key field value => k.onHash key fun old =>
      (added (old.contains field), old.insert field value)
  | .hget key field => k.onHash key fun old =>
      (((old.get? field).map Reply.bytes).getD .nothing, old)
  | .hdel key field => k.onHash key fun old => (removed (old.contains field), old.erase field)
  | .zadd key score member =>
      if score.isNaN then (.error notANumber, k)
      else k.onSorted key fun old => (added (old.contains member), old.insert member score)
  | .zrem key member => k.onSorted key fun old =>
      (removed (old.contains member), old.erase member)
  | .zcard key => k.onSorted key fun old => (.integer old.size, old)
  | .zrangebyscore key max => k.onSorted key fun old => (.texts (range old max), old)

end Keyspace

end ReliableQueue.Redis
