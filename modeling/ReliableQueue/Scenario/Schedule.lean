import ReliableQueue.Clock

/-!
Running a system on a clock that moves only when nothing can run: everything that can
take a step does so, then the clock jumps to the next instant at which something is due.
-/

namespace ReliableQueue.Scenario

/-- What the clock needs to know of a system. -/
structure Schedule (σ : Type) where
  now : σ → Instant
  elapse : σ → Instant → σ
  /-- A step of something that can run, if anything can. -/
  step : σ → Option σ
  /-- When things go on by themselves. -/
  wakeUps : σ → List Instant

/-- The longest wait for one operation. -/
def patience : Span := .ofSeconds 3600

/-- Steps that no scenario reaches. -/
def stepLimit : Nat := 1000000000

namespace Schedule

variable {σ : Type} (S : Schedule σ)

/-- Lets everything run that can. -/
def settle : Nat → σ → σ
  | 0, s => s
  | fuel + 1, s =>
    match S.step s with
    | none => s
    | some s => settle fuel s

/-- The first whole millisecond after now at which something is due. -/
def nextInstant (s : σ) : Option Instant :=
  (((S.wakeUps s).map Clock.tick).filter (S.now s < ·)).min?

/-- Runs until the goal is reached or, at the latest, through instant `limit`. -/
def runTo (goal : σ → Bool) (limit : Instant) : Nat → σ → σ
  | 0, s => s
  | fuel + 1, s =>
    let s := S.settle stepLimit s
    if goal s || limit ≤ S.now s then s
    else
      let t := min ((S.nextInstant s).getD limit) limit
      runTo goal limit fuel (S.elapse s t)

/-- Runs for `d`. -/
def advance (d : Span) (s : σ) : σ :=
  S.runTo (fun _ => false) (S.now s + d.nanos) stepLimit s

/-- Runs until the goal is reached, as long as patience lasts. -/
def await (goal : σ → Bool) (s : σ) : σ :=
  S.runTo goal (S.now s + patience.nanos) stepLimit s

end Schedule

end ReliableQueue.Scenario
