import ReliableQueue.Text.Hex

/-!
Write commands and ordered groups of them that a store runs as one transaction.
-/

namespace ReliableQueue.Store

open Text (Bytes)

/-- A write command. -/
inductive Command where
  /-- Append values to the tail of a list. -/
  | rpush (key : String) (values : List String)
  /-- Put a value before the head of a list. -/
  | lpush (key value : String)
  /-- Set a hash field. -/
  | hset (key field : String) (value : Bytes)
  /-- Delete a hash field. -/
  | hdel (key field : String)
  /-- Remove a member of a sorted set. -/
  | zrem (key member : String)
deriving DecidableEq, Repr

namespace Command

/-- Whether the command adds to a list. -/
def isPush : Command → Bool
  | .rpush .. | .lpush .. => true
  | .hset .. | .hdel .. | .zrem .. => false

def key : Command → String
  | .rpush k _ | .lpush k _ | .hset k _ _ | .hdel k _ | .zrem k _ => k

end Command

/-- Commands in the order in which they run. -/
structure Batch where
  commands : List Command
deriving DecidableEq, Repr

namespace Batch

def empty : Batch := ⟨[]⟩

def add (b : Batch) (c : Command) : Batch := ⟨b.commands ++ [c]⟩

/-- An append of no values queues nothing. -/
def rpush (b : Batch) (key : String) (values : List String) : Batch :=
  if values.isEmpty then b else b.add (.rpush key values)

def lpush (b : Batch) (key value : String) : Batch := b.add (.lpush key value)

def hset (b : Batch) (key field : String) (value : Bytes) : Batch := b.add (.hset key field value)

def hdel (b : Batch) (key field : String) : Batch := b.add (.hdel key field)

def zrem (b : Batch) (key member : String) : Batch := b.add (.zrem key member)

def isEmpty (b : Batch) : Bool := b.commands.isEmpty

def length (b : Batch) : Nat := b.commands.length

/-- Whether running the batch adds to a list. -/
def pushes (b : Batch) : Bool := b.commands.any Command.isPush

end Batch

end ReliableQueue.Store
