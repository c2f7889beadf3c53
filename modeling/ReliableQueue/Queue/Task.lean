import ReliableQueue.Text.Hex
import ReliableQueue.Text.Quoted

/-!
Tasks and the store keys that a queue owns.
-/

namespace ReliableQueue.Queue

open Text (Bytes)

/-- A unit of work. Identifiers are chosen by the caller and may repeat. -/
structure Task where
  id : String
  payload : Bytes := []
deriving DecidableEq, Repr

namespace Task

def withPayload (t : Task) (payload : Bytes) : Task := { t with payload }

/-- Only payloads that are not empty are stored. -/
def hasPayload (t : Task) : Bool := !t.payload.isEmpty

end Task

/-- The keys of one queue. -/
structure Keys where
  /-- List of waiting identifiers. -/
  pending : String
  /-- Sorted set of claimed identifiers, by the second of the claim. -/
  processing : String
  /-- Hash of payloads by identifier. -/
  payloads : String
deriving DecidableEq, Repr

namespace Keys

def ofName (name : String) : Keys :=
  ⟨name, name ++ ":processing", name ++ ":payloads"⟩

/-- The diagnostic form. -/
def debug (k : Keys) : String :=
  "QueueKeys \x7b pending: " ++ Text.quoted k.pending ++ ", processing: "
    ++ Text.quoted k.processing ++ ", payloads: " ++ Text.quoted k.payloads ++ " \x7d"

end Keys

end ReliableQueue.Queue
