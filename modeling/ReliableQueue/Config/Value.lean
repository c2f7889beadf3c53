import ReliableQueue.Binary64.Decimal
import ReliableQueue.Text.LowerCase
import ReliableQueue.Text.Quoted

/-!
Values of configuration sources. Each carries the name of the source that it comes
from; tables that were merged come from none.
-/

namespace ReliableQueue.Config

inductive Scalar where
  | null
  | truth (b : Bool)
  | int (i : Int)
  | float (x : Binary64)
  | text (s : String)
deriving DecidableEq

inductive Value where
  | scalar (origin : Option String) (s : Scalar)
  | list (origin : Option String) (items : List Value)
  | table (origin : Option String) (entries : List (String × Value))

namespace Value

instance : Inhabited Value := ⟨.scalar none .null⟩

def origin : Value → Option String
  | scalar o _ | list o _ | table o _ => o

/-- A table of no source. -/
def emptyTable : Value := .table none []

/-- The entries of a table; no other value has any. -/
def entries : Value → List (String × Value)
  | table _ es => es
  | _ => []

/-- Binds a key of a table; any other value becomes a table first. -/
def bind (root : Value) (key : String) (v : Value) : Value :=
  let rec put : List (String × Value) → List (String × Value)
    | [] => [(key, v)]
    | e :: rest => if e.1 = key then (key, v) :: rest else e :: put rest
  match root with
  | table o es => table o (put es)
  | _ => table none [(key, v)]

def get? (root : Value) (key : String) : Option Value := root.entries.lookup key

end Value

end ReliableQueue.Config
