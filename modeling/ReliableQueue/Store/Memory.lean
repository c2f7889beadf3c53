import ReliableQueue.Store.Contents
import ReliableQueue.Store.Error

/-!
A store in memory. Every access is one atomic step: it fails, changing nothing but
the count of failures left, exactly if its fault point is armed. Waiting pops learn
of new values from the number of pushes so far.
-/

namespace ReliableQueue.Store

open Text (Bytes)

structure Memory where
  contents : Contents := {}
  /-- Failures left at each fault point. -/
  faults : FaultPoint → Nat := fun _ => 0
  /-- Pushes so far, to any list. -/
  pushes : Nat := 0

namespace Memory

def empty : Memory := {}

instance : Inhabited Memory := ⟨empty⟩

/-- Makes the next `count` accesses at `point` fail, in place of what was asked for before. -/
def failNext (m : Memory) (point : FaultPoint) (count : Nat) : Memory :=
  { m with faults := fun p => if p = point then count else m.faults p }

/-- Runs `act` unless a failure is left at `point`, which it uses up instead. -/
def guarded {α : Type} (m : Memory) (point : FaultPoint) (act : Memory → α × Memory) :
    Except Error α × Memory :=
  match m.faults point with
  | 0 => let (a, m) := act m; (.ok a, m)
  | n + 1 => (.error (.injected point.name), m.failNext point n)

/-- Tells waiting pops that a list has grown. -/
def announce (m : Memory) : Memory := { m with pushes := m.pushes + 1 }

/-- Takes the head of a list; one look of a pop that may wait. -/
def look (m : Memory) (key : String) : Except Error (Option String) × Memory :=
  m.guarded .blpop fun m =>
    match m.contents.list key with
    | [] => (none, m)
    | x :: rest => (some x, { m with contents := m.contents.setList key rest })

def lpush (m : Memory) (key value : String) : Except Error Unit × Memory :=
  m.guarded .lpush fun m =>
    ((), { m with contents := m.contents.apply (.lpush key value) }.announce)

def llen (m : Memory) (key : String) : Nat := (m.contents.list key).length

def hget (m : Memory) (key field : String) : Except Error (Option Bytes) × Memory :=
  m.guarded .hget fun m => (m.contents.field? key field, m)

def zadd (m : Memory) (key member : String) (score : Binary64) : Except Error Unit × Memory :=
  m.guarded .zadd fun m => ((), { m with contents := m.contents.setScore key member score })

def zrangebyscore (m : Memory) (key : String) (max : Binary64) :
    Except Error (List String) × Memory :=
  m.guarded .zrangebyscore fun m => (m.contents.range key max, m)

def zcard (m : Memory) (key : String) : Nat := (m.contents.sortedSet key).size

def score? (m : Memory) (key member : String) : Option Binary64 := m.contents.score? key member

def hashLength (m : Memory) (key : String) : Nat := (m.contents.hash key).size

/-- Runs a batch as one step. A batch without commands does nothing and never fails. -/
def exec (m : Memory) (batch : Batch) : Except Error Unit × Memory :=
  if batch.isEmpty then (.ok (), m)
  else
    m.guarded .exec fun m =>
      let m := { m with contents := m.contents.applyAll batch.commands }
      ((), if batch.pushes then m.announce else m)

end Memory

end ReliableQueue.Store
