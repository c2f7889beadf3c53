import ReliableQueue.Config.Value
import ReliableQueue.Text.Numeral

/-!
Merging of sources, later ones over earlier ones. A table merges into what is there
key by key; any other value takes its place. Keys are compared in lower case.
-/

namespace ReliableQueue.Config

namespace Value

mutual
/-- Sets `key` of a table to `v`. -/
def set (root : Value) (key : String) : Value → Value
  | .table _ es =>
      let root := match root with
        | .table .. => root
        | _ => emptyTable
      root.bind (Text.lower key) (mergeAll ((root.get? (Text.lower key)).getD emptyTable) es)
  | .scalar o s => root.bind (Text.lower key) (.scalar o s)
  | .list o vs => root.bind (Text.lower key) (.list o vs)
termination_by structural v => v

/-- Sets the keys of a table in turn. -/
def mergeAll (root : Value) : List (String × Value) → Value
  | [] => root
  | e :: es => mergeAll (mergeEntry root e) es
termination_by structural es => es

def mergeEntry (root : Value) : String × Value → Value
  | (key, v) => set root key v
termination_by structural e => e
end

end Value

/-- One step of a path into nested values. -/
inductive PathStep where
  | key (name : String)
  | index (i : Int)
deriving DecidableEq, Repr

namespace PathStep

def isKeyChar (c : Char) : Bool := c.isAlphanum || c = ' ' || c = '_' || c = '-'

/-- A key of a path and what follows it. -/
def readKey? (cs : List Char) : Option (PathStep × List Char) :=
  let name := cs.takeWhile isKeyChar
  if name.isEmpty then none else some (.key (String.ofList name), cs.dropWhile isKeyChar)

def skipBlanks (cs : List Char) : List Char := cs.dropWhile fun c => c = ' ' || c = '\t'

/-- The index after an opening bracket, a number of 64 signed bits, and what follows the
closing one. -/
def readIndex? (cs : List Char) : Option (PathStep × List Char) :=
  let cs := skipBlanks cs
  let (mark, cs) := cs.span (· = '-')
  let digits := cs.takeWhile Char.isDigit
  match skipBlanks (cs.dropWhile Char.isDigit) with
  | ']' :: rest => (Text.int64? (String.ofList (mark ++ digits))).map (.index ·, rest)
  | _ => none

/-- The steps after the first key. -/
def readMore? : Nat → List Char → Option (List PathStep)
  | _, [] => some []
  | 0, _ => none
  | fuel + 1, '.' :: cs => do
      let (step, rest) ← readKey? cs
      return step :: (← readMore? fuel rest)
  | fuel + 1, '[' :: cs => do
      let (step, rest) ← readIndex? cs
      return step :: (← readMore? fuel rest)
  | _, _ => none

/-- The steps of a path such as `queue.name`, or nothing if the text is none. -/
def read? (s : String) : Option (List PathStep) := do
  let (step, rest) ← readKey? s.toList
  return step :: (← readMore? rest.length rest)

end PathStep

namespace Value

/-- The position that an index means in a list of `size` items, counted from the end if
it is negative. -/
def position (size : Nat) (i : Int) : Nat :=
  if 0 ≤ i then i.toNat else size - min size i.natAbs

/-- Sets the value at the end of a path; what stands in the way becomes a table or a list. -/
def setPath (root : Value) (path : List PathStep) (v : Value) : Value :=
  match path with
  | [] => root
  | [.key name] => root.set name v
  | .key name :: rest =>
      let key := Text.lower name
      root.bind key (setPath ((root.get? key).getD (.scalar none .null)) rest v)
  | .index i :: rest =>
      let (origin, items) := match root with
        | .list origin items => (origin, items)
        | _ => (none, [])
      let place := position items.length i
      let items := items ++ List.replicate (place + 1 - items.length) (.scalar none .null)
      let inner := match rest with
        | [] => v
        | _ => setPath (items[place]?.getD default) rest v
      .list origin (items.set place inner)

/-- Sets a key of a source, which is a path if it can be read as one. -/
def setSource (root : Value) (entry : String × Value) : Value :=
  match PathStep.read? entry.1 with
  | some path => root.setPath path entry.2
  | none => root.set entry.1 entry.2

/-- One source over what came before. -/
def overlay (root : Value) (source : List (String × Value)) : Value :=
  source.foldl setSource root

end Value

end ReliableQueue.Config
