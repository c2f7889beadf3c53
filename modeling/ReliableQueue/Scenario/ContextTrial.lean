import ReliableQueue.Cancellation
import ReliableQueue.Clock

/-!
A growing list of call contexts and acts on them.
-/

namespace ReliableQueue.Scenario

/-- What a call is given: a token and, if its time is limited, a deadline. -/
structure Context where
  token : Token
  deadline : Option Instant

namespace Context

/-- The time left at `now`. -/
def remaining (ctx : Context) (now : Instant) : Option Span :=
  ctx.deadline.map fun d => ⟨d - now⟩

end Context

inductive ContextAct where
  | create (deadline : Option Span)
  | child (index : Nat) (deadline : Option Span)
  | clone (index : Nat)
  | cancel (index : Nat)
  | advance (time : Span)
  /-- Wait for a cancellation, for a limited time. -/
  | await (index : Nat) (time : Span)

structure ContextTrial where
  now : Instant := 0
  tokens : Cancellation := {}
  contexts : List Context := []

namespace ContextTrial

def add (s : ContextTrial) (token : Token) (tokens : Cancellation) (deadline : Option Span) :
    ContextTrial :=
  { s with tokens, contexts := s.contexts ++ [⟨token, deadline.bind (Clock.after? s.now)⟩] }

def isCancelled (s : ContextTrial) (ctx : Context) : Bool := s.tokens.isCancelled ctx.token

/-- One act and, for a wait, whether the cancellation came. -/
def act (s : ContextTrial) : ContextAct → Option Bool × ContextTrial
  | .create deadline =>
      let (token, tokens) := s.tokens.fresh
      (none, s.add token tokens deadline)
  | .child i deadline =>
      match s.contexts[i]? with
      | none => (none, s)
      | some ctx =>
          let (token, tokens) := s.tokens.child ctx.token
          (none, s.add token tokens deadline)
  | .clone i => (none, { s with contexts := s.contexts ++ s.contexts[i]?.toList })
  | .cancel i =>
      match s.contexts[i]? with
      | none => (none, s)
      | some ctx => (none, { s with tokens := s.tokens.cancel ctx.token })
  | .advance d => (none, { s with now := s.now + d.nanos })
  | .await i d =>
      match s.contexts[i]? with
      | none => (none, s)
      | some ctx =>
          if s.isCancelled ctx then (some true, s)
          else (some false, { s with now := s.now + d.nanos })

end ContextTrial

end ReliableQueue.Scenario
