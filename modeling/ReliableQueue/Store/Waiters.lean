import ReliableQueue.Store.Pop

/-!
A store in memory with the pops that wait on it. Any pop may take the next step, and
any other access may come between two steps.
-/

namespace ReliableQueue.Store

inductive PopState where
  | active (p : Pop)
  | finished (time : Instant) (result : Except Error (Option String))
  | dropped
  /-- The clock does not have its deadline. -/
  | panicked

structure Waiter where
  key : String
  state : PopState

structure Waiters where
  now : Instant := 0
  memory : Memory := {}
  pops : List Waiter := []

namespace Waiters

/-- Starts a pop; its number is the count of pops before it. -/
def start (s : Waiters) (key : String) (timeout : Span) : Waiters :=
  let state := match Clock.after? s.now timeout with
    | some deadline => .active { deadline }
    | none => .panicked
  { s with pops := s.pops ++ [⟨key, state⟩] }

def setPop (s : Waiters) (i : Nat) (state : PopState) : Waiters :=
  { s with pops := s.pops.modify i ({ · with state }) }

/-- One step of pop `i`, if it can take one. -/
def step (s : Waiters) (i : Nat) : Option Waiters :=
  match s.pops[i]? with
  | some ⟨key, .active p⟩ =>
      match p.step key s.now s.memory with
      | none => none
      | some (.waiting p, memory) => some ({ s with memory }.setPop i (.active p))
      | some (.done result, memory) =>
          some ({ s with memory }.setPop i (.finished s.now result))
  | _ => none

/-- The caller of pop `i` gives up waiting. -/
def drop (s : Waiters) (i : Nat) : Waiters :=
  match s.pops[i]? with
  | some ⟨_, .active _⟩ => s.setPop i .dropped
  | _ => s

/-- Where pop `i` stands. -/
def state? (s : Waiters) (i : Nat) : Option PopState := (s.pops[i]?).map Waiter.state

def wakeUps (s : Waiters) : List Instant :=
  s.pops.filterMap fun w => match w.state with
    | .active p => some p.deadline
    | _ => none

end Waiters

end ReliableQueue.Store
