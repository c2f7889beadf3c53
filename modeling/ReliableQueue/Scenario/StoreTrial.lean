import ReliableQueue.Scenario.Schedule
import ReliableQueue.Store.Waiters

/-!
Calls on one store in memory, in the foreground and in the background.
-/

namespace ReliableQueue.Scenario

open Store
open Text (Bytes)

inductive StoreCall where
  | exec (batch : Batch)
  | blpop (key : String) (timeout : Span)
  | lpush (key value : String)
  | llen (key : String)
  | hget (key field : String)
  | zadd (key member : String) (score : Binary64)
  | zrangebyscore (key : String) (max : Binary64)
  | zcard (key : String)
  | list (key : String)
  | score (key member : String)
  | hashLength (key : String)

inductive StoreReply where
  | done
  | value (v : Option String)
  | bytes (b : Option Bytes)
  | number (n : Nat)
  | values (vs : List String)
  | score (s : Option Binary64)

abbrev StoreResult := Except Store.Error StoreReply

inductive StoreAct where
  | call (c : StoreCall)
  | failNext (point : FaultPoint) (count : Nat)
  | advance (time : Span)
  | spawn (name : String) (c : StoreCall)
  | join (name : String)

inductive StoreAnswer where
  | nothing
  | result (r : StoreResult)
  /-- The end of a background call. -/
  | joined (time : Instant) (r : StoreResult)
  | blocked
  | panicked

/-- A background call: over at once, or a pop by its number. -/
inductive Background where
  | over (time : Instant) (r : StoreResult)
  | pop (index : Nat)

/-- How a background call ended. -/
inductive StoreEnding where
  | returned (time : Instant) (r : StoreResult)
  | panicked

structure StoreTrial where
  waiters : Waiters := {}
  background : List (String × Background) := []

namespace StoreTrial

def schedule : Schedule Waiters where
  now := Waiters.now
  elapse s t := { s with now := t }
  step s := (List.range s.pops.length).findSome? s.step
  wakeUps := Waiters.wakeUps

/-- A call that never waits; a pop is no such call. -/
def immediate (m : Memory) : StoreCall → Option (StoreResult × Memory)
  | .exec batch => let (r, m) := m.exec batch; some (r.map fun _ => .done, m)
  | .blpop .. => none
  | .lpush key value => let (r, m) := m.lpush key value; some (r.map fun _ => .done, m)
  | .llen key => some (.ok (.number (m.llen key)), m)
  | .hget key field => let (r, m) := m.hget key field; some (r.map .bytes, m)
  | .zadd key member score => let (r, m) := m.zadd key member score; some (r.map fun _ => .done, m)
  | .zrangebyscore key max => let (r, m) := m.zrangebyscore key max; some (r.map .values, m)
  | .zcard key => some (.ok (.number (m.zcard key)), m)
  | .list key => some (.ok (.values (m.contents.list key)), m)
  | .score key member => some (.ok (.score (m.score? key member)), m)
  | .hashLength key => some (.ok (.number (m.hashLength key)), m)

/-- Starts a call in the background. -/
def launch (w : Waiters) (c : StoreCall) : Background × Waiters :=
  match immediate w.memory c with
  | some (r, memory) => (.over w.now r, { w with memory })
  | none =>
    match c with
    | .blpop key timeout => (.pop w.pops.length, w.start key timeout)
    | _ => (.over w.now (.ok .done), w)

/-- The end of a background call, if it has ended. -/
def ending? (w : Waiters) : Background → Option StoreEnding
  | .over time r => some (.returned time r)
  | .pop i =>
    match w.state? i with
    | some (.finished time r) => some (.returned time (r.map .value))
    | some .panicked => some .panicked
    | _ => none

def settled (w : Waiters) : Waiters := schedule.settle stepLimit w

/-- Waits for a call as long as patience lasts. -/
def await (w : Waiters) (b : Background) : Waiters :=
  schedule.await (fun w => (ending? w b).isSome) w

def act (s : StoreTrial) : StoreAct → StoreAnswer × StoreTrial
  | .failNext point count =>
      let w := s.waiters
      (.nothing, { s with waiters := settled { w with memory := w.memory.failNext point count } })
  | .advance d => (.nothing, { s with waiters := schedule.advance d s.waiters })
  | .spawn name c =>
      let (b, w) := launch s.waiters c
      (.nothing, { waiters := settled w, background := (name, b) :: s.background })
  | .call c =>
      let (b, w) := launch s.waiters c
      let w := await w b
      match ending? w b, b with
      | some (.returned _ r), _ => (.result r, { s with waiters := w })
      | some .panicked, _ => (.panicked, { s with waiters := w })
      | none, .pop i => (.blocked, { s with waiters := w.drop i })
      | none, .over _ _ => (.blocked, { s with waiters := w })
  | .join name =>
      match s.background.lookup name with
      | none => (.nothing, s)
      | some b =>
          let w := await s.waiters b
          let s := { s with waiters := w, background := s.background.eraseP (·.1 = name) }
          match ending? w b with
          | some (.returned time r) => (.joined time r, s)
          | some .panicked => (.panicked, s)
          | none => (.blocked, s)

end StoreTrial

end ReliableQueue.Scenario
