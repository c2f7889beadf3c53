import ReliableQueue.Table
import ReliableQueue.Binary64
import ReliableQueue.Store.Batch

/-!
What a store holds: lists, sorted sets and hashes, each under keys of its own. A
key that was never written and a key whose value is empty are read alike.
-/

namespace ReliableQueue.Store

open Text (Bytes)

structure Contents where
  lists : Table (List String) := .empty
  sorted : Table (Table Binary64) := .empty
  hashes : Table (Table Bytes) := .empty
deriving DecidableEq, Inhabited

namespace Contents

def empty : Contents := {}

/-- A list, head first. -/
def list (c : Contents) (key : String) : List String := c.lists.getD key []

/-- A sorted set as members with their scores. -/
def sortedSet (c : Contents) (key : String) : Table Binary64 := c.sorted.getD key .empty

def hash (c : Contents) (key : String) : Table Bytes := c.hashes.getD key .empty

def score? (c : Contents) (key member : String) : Option Binary64 :=
  (c.sortedSet key).get? member

def field? (c : Contents) (key field : String) : Option Bytes :=
  (c.hash key).get? field

def setList (c : Contents) (key : String) (values : List String) : Contents :=
  { c with lists := c.lists.insert key values }

def setScore (c : Contents) (key member : String) (score : Binary64) : Contents :=
  { c with sorted := c.sorted.insert key ((c.sortedSet key).insert member score) }

/-- Runs one write command. -/
def apply (c : Contents) : Command → Contents
  | .rpush key values => c.setList key (c.list key ++ values)
  | .lpush key value => c.setList key (value :: c.list key)
  | .hset key field value =>
      { c with hashes := c.hashes.insert key ((c.hash key).insert field value) }
  | .hdel key field => { c with hashes := c.hashes.insert key ((c.hash key).erase field) }
  | .zrem key member => { c with sorted := c.sorted.insert key ((c.sortedSet key).erase member) }

def applyAll (c : Contents) (commands : List Command) : Contents :=
  commands.foldl apply c

/-- Whether `a` comes before `b` in a range: by score, then by member. -/
def rangeOrder (a b : String × Binary64) : Bool :=
  decide (a.2.totalKey < b.2.totalKey) ||
    (a.2.totalKey = b.2.totalKey && decide (a.1 ≤ b.1))

/-- The members among `entries` with a score up to `max`, in range order. -/
def rangeUpTo (entries : List (String × Binary64)) (max : Binary64) : List String :=
  ((entries.filter (fun e => e.2.le max)).mergeSort rangeOrder).map Prod.fst

/-- The members of a sorted set with a score up to `max`. -/
def range (c : Contents) (key : String) (max : Binary64) : List String :=
  rangeUpTo (c.sortedSet key).entries max

end Contents

end ReliableQueue.Store
