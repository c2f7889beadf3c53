import ReliableQueue.Proofs.Queue.ClaimAge
import ReliableQueue.Proofs.Queue.StaleClaims

/-!
A sweeper alone with the store of its queue. It sweeps at once and then at regular instants until
it is cancelled, whatever fails. A sweep that fails in part has moved the claims that it could, and
the next one goes on with those that are left; so each abandoned claim is moved once, and all of
them are by the first sweep that meets no failure.
-/

namespace ReliableQueue.Queue

open Store (Contents Memory FaultPoint)

/-! ### Patrols -/

/-- The claim that a recovery has moved. -/
def Event.recovered? : Event → Option String
  | .recovered id => some id
  | _ => none

def Event.isRecoveryFailure : Event → Bool
  | .recoveryFailed .. => true
  | _ => false

namespace Recovery.Outcome

def result? : Outcome → Option (Except Store.Error Nat)
  | going _ => none
  | done result => some result

/-- A recovery ends with a failure if the lookup fails. -/
def failures : Outcome → Nat
  | done (.error _) => 1
  | done (.ok _) | going _ => 0

end Recovery.Outcome

/-- A sweep, as far as it has come. -/
structure Sweep where
  due : Instant
  begun : Instant
  /-- When the claims were looked up. -/
  looked : Option Instant := none
  /-- The claims that were moved, in order. -/
  moved : List String := []
  /-- How many accesses have failed. -/
  failures : Nat := 0
  result : Option (Except Store.Error Nat) := none

namespace Sweep

/-- The sweep after a step of its recovery. -/
def after (w : Sweep) (now : Instant) (r : Recovery) (outcome : Recovery.Outcome)
    (events : List Event) : Sweep :=
  { w with
    looked := if r = .ranging then some now else w.looked
    moved := w.moved ++ events.filterMap Event.recovered?
    failures := w.failures + events.countP Event.isRecoveryFailure + outcome.failures
    result := outcome.result? }

/-- The count that the recovery has returned. -/
def count (w : Sweep) : Nat :=
  match w.result with
  | some (.ok count) => count
  | some (.error _) | none => 0

end Sweep

/-- A sweeper on a store that nothing else uses. -/
structure Patrol where
  keys : Keys
  epoch : Nat
  sweeper : Sweeper
  now : Instant
  memory : Memory
  cancelled : Bool
  /-- Failures of lookups and moves that were asked for. -/
  injected : Nat
  /-- When the loop began to run. -/
  started : Option Instant := none
  /-- The sweeps that have ended, in order. -/
  ended : List Sweep := []
  current : Option Sweep := none

/-- What may come next. A cancellation may be overlooked when a sweep is due. -/
inductive Beat where
  | step (heeds : Bool)
  | elapse (t : Instant)
  | cancel
  | failNext (point : FaultPoint) (count : Nat)

namespace Patrol

/-- The failures of lookups and moves that are still to come. -/
def armed (m : Memory) : Nat := m.faults .zrangebyscore + m.faults .exec

def begin (keys : Keys) (epoch : Nat) (sweeper : Sweeper) (now : Instant) (m : Memory)
    (cancelled : Bool) : Patrol :=
  { keys, epoch, sweeper, now, memory := m, cancelled, injected := armed m }

def stage (p : Patrol) : Sweeper.Stage := p.sweeper.stage

def period (p : Patrol) : Span := p.sweeper.config.period

/-- What a recovery that looks at `t` takes for abandoned. -/
def cutoffAt (p : Patrol) (t : Instant) : Binary64 :=
  cutoff (Clock.wallSecond p.epoch t) p.sweeper.config.maxAge

def sweeps (p : Patrol) : List Sweep := p.ended ++ p.current.toList

def moved (p : Patrol) : List String := p.sweeps.flatMap Sweep.moved

/-- The step of the recovery that is under way. -/
def recover (p : Patrol) (r : Recovery) : Recovery.Outcome × Memory × List Event :=
  r.step p.keys p.sweeper.config.maxAge (Clock.wallSecond p.epoch p.now) p.memory

/-- The patrol when the sweeper has come to `stage`, leaving the store at `memory`. -/
def moveTo (p : Patrol) (stage : Sweeper.Stage) (memory : Memory) : Patrol :=
  let q := { p with memory, sweeper := { p.sweeper with stage } }
  match p.stage, stage with
  | .starting, _ => { q with started := some p.now }
  | .waiting due, .sweeping .. => { q with current := some { due, begun := p.now } }
  | .sweeping r _, _ =>
      let (outcome, _, events) := p.recover r
      let sweep := p.current.map (·.after p.now r outcome events)
      match outcome with
      | .going _ => { q with current := sweep }
      | .done _ => { q with current := none, ended := p.ended ++ sweep.toList }
  | _, _ => q

/-- The patrol after a beat, if the beat can come. -/
def perform (p : Patrol) : Beat → Option Patrol
  | .step heeds =>
      if heeds && !p.cancelled then none
      else
        match p.sweeper.step p.keys p.epoch p.now heeds p.memory with
        | some (stage, memory, _) => some (p.moveTo stage memory)
        | none => none
  | .elapse t => some { p with now := max p.now t }
  | .cancel => some { p with cancelled := true }
  | .failNext point count =>
      some { p with
        memory := p.memory.failNext point count
        injected := p.injected +
          if point = .zrangebyscore ∨ point = .exec then count else 0 }

/-- The patrol after a sequence of beats, if each can come in its turn. -/
def run (p : Patrol) : List Beat → Option Patrol
  | [] => some p
  | beat :: rest => (p.perform beat).bind (run · rest)

end Patrol

/-! ### Recoveries -/

/-- What a step of a recovery can be. -/
inductive Recovery.Steps (k : Keys) (maxAge : Span) (second : Nat) (m : Memory) :
    Recovery → Outcome → Memory → List Event → Prop where
  | unranged {n : Nat} (left : m.faults .zrangebyscore = n + 1) :
      Steps k maxAge second m .ranging (.done (.error (.injected "zrangebyscore")))
        (m.failNext .zrangebyscore n) []
  | ranged {ids : List String}
      (range : m.contents.IsRange k.processing (cutoff second maxAge) ids) :
      Steps k maxAge second m .ranging (.going (.restoring ids 0)) m []
  | restored (count : Nat) :
      Steps k maxAge second m (.restoring [] count) (.done (.ok count)) m
        (if count = 0 then [] else [.recoveredTotal count])
  | kept {id : String} {left : List String} {count n : Nat} (armed : m.faults .exec = n + 1) :
      Steps k maxAge second m (.restoring (id :: left) count) (.going (.restoring left count))
        (m.failNext .exec n) [.recoveryFailed id (.injected "exec")]
  | moved {id : String} {left : List String} {count : Nat} {m' : Memory}
      (faults : m'.faults = m.faults)
      (contents : m'.contents = m.contents.applyAll (recoveryBatch k id).commands) :
      Steps k maxAge second m (.restoring (id :: left) count)
        (.going (.restoring left (count + 1))) m' [.recovered id]

theorem Recovery.steps {k : Keys} {maxAge : Span} {second : Nat} {m m' : Memory}
    {r : Recovery} {o : Outcome} {es : List Event}
    (h : r.step k maxAge second m = (o, m', es)) : Steps k maxAge second m r o m' es := by
  cases r with
  | ranging =>
      simp only [step] at h
      split at h
      · next failed =>
          cases h
          obtain ⟨n, left, rfl, rfl⟩ := Memory.guarded_injected failed
          exact .unranged left
      · next found =>
          cases h
          obtain ⟨rfl, rfl⟩ := Memory.zrangebyscore_ok found
          exact .ranged (Contents.isRange_range _ _ _)
  | restoring ids count =>
      cases ids with
      | nil =>
          cases h
          exact .restored count
      | cons id left =>
          cases armed : m.faults .exec with
          | zero =>
              obtain ⟨m₁, ran, faults, contents⟩ :=
                Memory.exec_of_none armed (recoveryBatch k id)
              simp only [step, ran] at h
              cases h
              exact .moved faults contents
          | succ n =>
              have failed := Memory.exec_of_some armed (b := recoveryBatch k id) rfl
              simp only [step, failed] at h
              cases h
              exact .kept armed

/-- What a step moves and what fails in it. -/
theorem Recovery.Steps.putBack {k : Keys} {maxAge : Span} {second : Nat} {m m' : Memory}
    {r : Recovery} {o : Outcome} {es : List Event} (h : Steps k maxAge second m r o m' es) :
    PutBack k (es.filterMap Event.recovered?) m.contents m'.contents := by
  cases h with
  | unranged | ranged | kept => exact .nil k _
  | restored count => split <;> exact .nil k _
  | moved faults contents =>
      refine PutBack.cons ?_
      rw [← contents]
      exact .nil k _

namespace Sweep

variable {w : Sweep} {now : Instant} {r : Recovery} {o : Recovery.Outcome} {es : List Event}

theorem looked_ranging : (w.after now .ranging o es).looked = some now := rfl

theorem looked_restoring (ids : List String) (count : Nat) :
    (w.after now (.restoring ids count) o es).looked = w.looked := rfl

theorem failures_le : w.failures ≤ (w.after now r o es).failures := by
  simp only [after]
  omega

/-- Each failure of a sweep is one that was armed. -/
theorem failures_after {k : Keys} {maxAge : Span} {second : Nat} {m m' : Memory}
    (h : Recovery.Steps k maxAge second m r o m' es) :
    (w.after now r o es).failures + Patrol.armed m' = w.failures + Patrol.armed m := by
  cases h with
  | unranged left | kept left =>
      simp only [after, Patrol.armed, Memory.faults_failNext, reduceCtorEq, if_false, if_true,
        left, List.countP_nil, List.countP_cons, Event.isRecoveryFailure, Recovery.Outcome.failures]
      omega
  | ranged => rfl
  | restored count =>
      simp only [after]
      split <;> rfl
  | moved faults =>
      simp only [after, Patrol.armed, faults]
      rfl

end Sweep

/-! ### Ticks -/

/-- Sweeps in order, with the ticks at which they were due. -/
structure Timed (period : Span) (started : Option Instant) (now : Instant) (sweeps : List Sweep) :
    Prop where
  first : ∀ w, sweeps[0]? = some w → started = some w.due
  follows : ∀ i w w', sweeps[i]? = some w → sweeps[i + 1]? = some w' →
    Sweeper.nextTick period w.due w.begun = some w'.due
  begun : ∀ w ∈ sweeps, w.due ≤ w.begun ∧ w.begun ≤ now
  looked : ∀ w ∈ sweeps, ∀ t ∈ w.looked, w.begun ≤ t ∧ t ≤ now
  order : sweeps.Pairwise fun w w' => ∀ t ∈ w.looked, t ≤ w'.begun

namespace Timed

variable {period : Span} {started : Option Instant} {now : Instant} {sweeps : List Sweep}
  {w w' : Sweep}

theorem nil : Timed period started now [] where
  first _ eq := by cases eq
  follows _ _ _ eq := by cases eq
  begun _ hw := by cases hw
  looked _ hw := by cases hw
  order := .nil

theorem elapse (h : Timed period started now sweeps) {later : Instant} (le : now ≤ later) :
    Timed period started later sweeps where
  first := h.first
  follows := h.follows
  begun w hw := ⟨(h.begun w hw).1, Nat.le_trans (h.begun w hw).2 le⟩
  looked w hw t ht := ⟨(h.looked w hw t ht).1, Nat.le_trans (h.looked w hw t ht).2 le⟩
  order := h.order

/-- A sweep begins at its tick or later. -/
theorem begin (h : Timed period started now sweeps) {tick : Instant} (due : tick ≤ now)
    (first : sweeps = [] → started = some tick)
    (next : ∀ w, sweeps.getLast? = some w →
      Sweeper.nextTick period w.due w.begun = some tick) :
    Timed period started now (sweeps ++ [{ due := tick, begun := now }]) where
  first w eq := by
    rcases getElem?_concat_cases eq with ⟨empty, rfl⟩ | before
    · exact first (List.eq_nil_of_length_eq_zero empty.symm)
    · exact h.first w before
  follows i w w' eq eq' := by
    have short := (List.getElem?_eq_some_iff.mp eq').1
    rw [List.length_append, List.length_singleton] at short
    have before : sweeps[i]? = some w :=
      (getElem?_concat_cases eq).resolve_left fun last => by omega
    rcases getElem?_concat_cases eq' with ⟨last, rfl⟩ | before'
    · refine next w ?_
      rw [List.getLast?_eq_getElem?, ← last]
      exact before
    · exact h.follows i w w' before before'
  begun w hw := by
    rcases List.mem_append.mp hw with hw | hw
    · exact h.begun w hw
    · cases List.mem_singleton.mp hw
      exact ⟨due, Nat.le_refl _⟩
  looked w hw t ht := by
    rcases List.mem_append.mp hw with hw | hw
    · exact h.looked w hw t ht
    · cases List.mem_singleton.mp hw
      cases ht
  order := by
    refine List.pairwise_append.mpr ⟨h.order, List.pairwise_singleton _ _, fun w hw w' hw' => ?_⟩
    cases List.mem_singleton.mp hw'
    exact fun t ht => (h.looked w hw t ht).2

/-- The last sweep goes on. -/
theorem goOn (h : Timed period started now (sweeps ++ [w])) (due : w'.due = w.due)
    (begun : w'.begun = w.begun) (looked : w'.looked = w.looked ∨ w'.looked = some now) :
    Timed period started now (sweeps ++ [w']) := by
  have twin {i : Nat} {v : Sweep} (at_i : (sweeps ++ [w'])[i]? = some v) :
      ∃ u, (sweeps ++ [w])[i]? = some u ∧ v.due = u.due ∧ v.begun = u.begun ∧
        (v.looked = u.looked ∨ v.looked = some now) := by
    rcases getElem?_concat_cases at_i with ⟨rfl, rfl⟩ | before
    · exact ⟨w, List.getElem?_concat_length, due, begun, looked⟩
    · exact ⟨v, getElem?_concat_of before w, rfl, rfl, .inl rfl⟩
  refine ⟨fun v at_first => ?_, fun i v v' at_i at_next => ?_, fun v mem => ?_,
    fun v mem t seen => ?_, ?_⟩
  · obtain ⟨u, at_first', due, -⟩ := twin at_first
    rw [due]
    exact h.first u at_first'
  · obtain ⟨u, at_i', due, begun, -⟩ := twin at_i
    obtain ⟨u', at_next', due', -⟩ := twin at_next
    rw [due, due', begun]
    exact h.follows i u u' at_i' at_next'
  · obtain ⟨i, at_i⟩ := List.mem_iff_getElem?.mp mem
    obtain ⟨u, at_i', due, begun, -⟩ := twin at_i
    rw [due, begun]
    exact h.begun u (List.mem_of_getElem? at_i')
  · obtain ⟨i, at_i⟩ := List.mem_iff_getElem?.mp mem
    obtain ⟨u, at_i', -, begun, same | new⟩ := twin at_i
    · rw [begun]
      exact h.looked u (List.mem_of_getElem? at_i') t (same ▸ seen)
    · cases Option.mem_def.mp (new ▸ seen)
      rw [begun]
      exact ⟨(h.begun u (List.mem_of_getElem? at_i')).2, Nat.le_refl _⟩
  · obtain ⟨before, -, last⟩ := List.pairwise_append.mp h.order
    refine List.pairwise_append.mpr ⟨before, List.pairwise_singleton _ _, fun u hu v hv => ?_⟩
    cases List.mem_singleton.mp hv
    rw [begun]
    exact last u hu w (List.mem_singleton_self w)

/-- The first lookup was no later than any other. -/
theorem le_of_first (h : Timed period started now sweeps) (first : sweeps[0]? = some w)
    {t u : Instant} (looked : w.looked = some t) (mem : w' ∈ sweeps)
    (looked' : w'.looked = some u) :
    t ≤ u := by
  cases sweeps with
  | nil => cases mem
  | cons v rest =>
      cases first
      rcases List.mem_cons.mp mem with rfl | mem
      · exact Nat.le_of_eq (Option.some.inj (looked.symm.trans looked'))
      · have order := (List.pairwise_cons.mp h.order).1 w' mem t looked
        exact Nat.le_trans order (h.looked w' (List.mem_cons_of_mem _ mem) u looked').1

end Timed

/-! ### What a patrol keeps -/

namespace Patrol

def score? (p : Patrol) (x : String) : Option Binary64 :=
  p.memory.contents.score? p.keys.processing x

/-- What a sweep has still to do where the claims stand at `scores`. -/
inductive Seeks (scores : String → Option Binary64) (cutoffAt : Instant → Binary64) (w : Sweep) :
    Recovery → Prop where
  | ranging (moved : w.moved = []) (failures : w.failures = 0) : Seeks scores cutoffAt w .ranging
  | restoring {ids : List String} {count : Nat} {t : Instant} (looked : w.looked = some t)
      (counted : count = w.moved.length) (unique : ids.Nodup)
      (claimed : ∀ x ∈ ids, (scores x).isSome = true)
      (rest : w.failures = 0 → ∀ x s, scores x = some s → s.le (cutoffAt t) = true → x ∈ ids) :
      Seeks scores cutoffAt w (.restoring ids count)

/-- A sweep that has ended. If nothing failed in it, it left no claim that it took for abandoned. -/
structure Over (scores : String → Option Binary64) (cutoffAt : Instant → Binary64) (w : Sweep) :
    Prop where
  counted : w.count = w.moved.length
  cleared : w.failures = 0 → ∃ t, w.looked = some t ∧
    ∀ x s, scores x = some s → s.le (cutoffAt t) = false

/-- The next sweep is due at `tick`. -/
structure DueAt (p : Patrol) (tick : Instant) : Prop where
  first : p.ended = [] → p.started = some tick
  next : ∀ w, p.ended.getLast? = some w → Sweeper.nextTick p.period w.due w.begun = some tick

inductive Stands (p : Patrol) : Prop where
  | starting (stage : p.stage = .starting) (ended : p.ended = []) (current : p.current = none)
  | waiting {tick : Instant} (stage : p.stage = .waiting tick) (current : p.current = none)
      (due : p.DueAt tick)
  | sweeping {r : Recovery} {next : Instant} {w : Sweep} (stage : p.stage = .sweeping r next)
      (current : p.current = some w)
      (then_due : Sweeper.nextTick p.period w.due w.begun = some next)
      (seeks : Seeks p.score? p.cutoffAt w r)
  | leaving (stage : p.stage = .stopping ∨ p.stage = .stopped) (current : p.current = none)
      (cancelled : p.cancelled = true)
  | panicked {tick t : Instant} (stage : p.stage = .panicked) (current : p.current = none)
      (due : p.DueAt tick) (past : t ≤ p.now) (lost : Sweeper.nextTick p.period tick t = none)

/-- How a patrol comes from what it was at first. -/
structure Kept (p₀ p : Patrol) : Prop where
  keys : p.keys = p₀.keys
  epoch : p.epoch = p₀.epoch
  config : p.sweeper.config = p₀.sweeper.config
  contents : PutBack p.keys p.moved p₀.memory.contents p.memory.contents
  claimed : ∀ x ∈ p.moved, (p₀.score? x).isSome = true
  unique : p.moved.Nodup
  failures : (p.sweeps.map Sweep.failures).sum + armed p.memory ≤ p.injected
  ended : ∀ w ∈ p.ended, Over p.score? p.cutoffAt w
  timed : Timed p.period p.started p.now p.sweeps
  stands : Stands p

variable {p₀ p q : Patrol} {m' : Memory} {r : Recovery} {o : Recovery.Outcome} {es : List Event}
  {w : Sweep}

theorem kept_begin {keys : Keys} {epoch : Nat} {sweeper : Sweeper} {now : Instant} {m : Memory}
    {cancelled : Bool} (starting : sweeper.stage = .starting) :
    Kept (begin keys epoch sweeper now m cancelled) (begin keys epoch sweeper now m cancelled) where
  keys := rfl
  epoch := rfl
  config := rfl
  contents := .nil keys m.contents
  claimed x hx := by cases hx
  unique := .nil
  failures := Nat.le_of_eq (Nat.zero_add _)
  ended w hw := by cases hw
  timed := .nil
  stands := .starting starting rfl rfl

/-! ### A step of a recovery -/

/-- The patrol when the sweep under way has come to be `w`. -/
def sweepTo (p : Patrol) (m : Memory) (o : Recovery.Outcome) (next : Instant) (w : Sweep) :
    Patrol :=
  { p with
    memory := m
    sweeper := { p.sweeper with
      stage := match o with
        | .going r => .sweeping r next
        | .done _ => .waiting next }
    ended := match o with
      | .going _ => p.ended
      | .done _ => p.ended ++ [w]
    current := match o with
      | .going _ => some w
      | .done _ => none }

@[simp] theorem sweeps_sweepTo (p : Patrol) (m : Memory) (o : Recovery.Outcome) (next : Instant)
    (w : Sweep) : (p.sweepTo m o next w).sweeps = p.ended ++ [w] := by
  cases o with
  | going => rfl
  | done => exact List.append_nil _

theorem perform_sweeping {next : Instant} {heeds : Bool} (stage : p.stage = .sweeping r next)
    (current : p.current = some w) (fair : (heeds && !p.cancelled) = false)
    (step : p.recover r = (o, m', es)) :
    p.perform (.step heeds) = some (p.sweepTo m' o next (w.after p.now r o es)) := by
  have at_stage : p.sweeper.stage = .sweeping r next := stage
  have recovery : r.step p.keys p.sweeper.config.maxAge (Clock.wallSecond p.epoch p.now)
      p.memory = (o, m', es) := step
  simp only [perform, fair, Bool.false_eq_true, if_false, Sweeper.step, at_stage, recovery]
  obtain r' | count | e := o
  all_goals simp only [moveTo, stage, step, current, sweepTo, Option.map_some, Option.toList_some]

theorem sweeps_of_current (current : p.current = some w) : p.sweeps = p.ended ++ [w] := by
  rw [sweeps, current, Option.toList_some]

theorem moved_of_current (current : p.current = some w) :
    p.moved = p.ended.flatMap Sweep.moved ++ w.moved := by
  rw [moved, sweeps_of_current current, List.flatMap_append, List.flatMap_singleton]

theorem moved_sweepTo {next now : Instant} (current : p.current = some w) :
    (p.sweepTo m' o next (w.after now r o es)).moved =
      p.moved ++ es.filterMap Event.recovered? := by
  rw [moved_of_current current, moved, sweeps_sweepTo, List.flatMap_append,
    List.flatMap_singleton, List.append_assoc]
  rfl

/-- The step of the recovery that patrol `p` has under way. -/
def Steps (p : Patrol) (r : Recovery) (o : Recovery.Outcome) (m' : Memory) (es : List Event) :
    Prop :=
  Recovery.Steps p.keys p.sweeper.config.maxAge (Clock.wallSecond p.epoch p.now) p.memory r o m' es

/-- A step moves only what is claimed, and nothing twice. -/
theorem claimed_of_steps (seeks : Seeks p.score? p.cutoffAt w r) (steps : p.Steps r o m' es) :
    (∀ x ∈ es.filterMap Event.recovered?, (p.score? x).isSome = true) ∧
      (es.filterMap Event.recovered?).Nodup := by
  cases steps with
  | unranged | ranged | kept => exact ⟨fun x hx => (by cases hx), .nil⟩
  | restored count => split <;> exact ⟨fun x hx => (by cases hx), .nil⟩
  | moved =>
      cases seeks with
      | restoring looked counted unique claimed rest =>
          refine ⟨fun x hx => ?_, List.pairwise_singleton _ _⟩
          cases List.mem_singleton.mp hx
          exact claimed _ List.mem_cons_self

theorem score?_of_steps (steps : p.Steps r o m' es) (x : String) :
    m'.contents.score? p.keys.processing x =
      if x ∈ es.filterMap Event.recovered? then none else p.score? x :=
  (Recovery.Steps.putBack steps).claims x

/-- A claim that is there after a step was there before. -/
theorem score?_of_score? (steps : p.Steps r o m' es) {x : String} {s : Binary64}
    (score : m'.contents.score? p.keys.processing x = some s) : p.score? x = some s := by
  rw [score?_of_steps steps] at score
  split at score
  · cases score
  · exact score

theorem seeks_of_going {r' : Recovery} (seeks : Seeks p.score? p.cutoffAt w r)
    (steps : p.Steps r (.going r') m' es) :
    Seeks (m'.contents.score? p.keys.processing) p.cutoffAt (w.after p.now r (.going r') es)
      r' := by
  have steps' := steps
  cases steps with
  | ranged range =>
      cases seeks with
      | ranging moved failures =>
          refine .restoring Sweep.looked_ranging ?_ range.nodup (fun x hx => ?_)
            fun _ x s score low => (range.mem x).mpr ⟨s, score, low⟩
          · simp [Sweep.after, moved]
          · obtain ⟨s, score, -⟩ := (range.mem x).mp hx
            exact Option.isSome_iff_exists.mpr ⟨s, score⟩
  | kept armed =>
      cases seeks with
      | restoring looked counted unique claimed rest =>
          refine .restoring ((Sweep.looked_restoring _ _).trans looked) ?_
            (List.nodup_cons.mp unique).2 (fun x hx => claimed x (List.mem_cons_of_mem _ hx))
            fun none => ?_
          · simp [Sweep.after, counted, Event.recovered?]
          · simp [Sweep.after, Event.isRecoveryFailure] at none
  | @moved id left count =>
      cases seeks with
      | restoring looked counted unique claimed rest =>
          obtain ⟨fresh, unique⟩ := List.nodup_cons.mp unique
          have scores (x : String) : m'.contents.score? p.keys.processing x =
              if x = id then Option.none else p.score? x := by
            simpa [Event.recovered?] using score?_of_steps steps' x
          refine .restoring ((Sweep.looked_restoring _ _).trans looked) ?_ unique (fun x hx => ?_)
            fun none x s score low => ?_
          · simp [Sweep.after, counted, Event.recovered?]
          · rw [scores, if_neg (ne_of_mem_of_not_mem hx fresh)]
            exact claimed x (List.mem_cons_of_mem _ hx)
          · rw [scores] at score
            split at score
            · cases score
            · next other =>
                have none : w.failures = 0 :=
                  Nat.eq_zero_of_le_zero (Nat.le_trans Sweep.failures_le (Nat.le_of_eq none))
                exact (List.mem_cons.mp (rest none x s score low)).resolve_left other

theorem over_of_done {result : Except Store.Error Nat} (seeks : Seeks p.score? p.cutoffAt w r)
    (steps : p.Steps r (.done result) m' es) :
    Over (m'.contents.score? p.keys.processing) p.cutoffAt (w.after p.now r (.done result) es) := by
  cases steps with
  | unranged =>
      cases seeks with
      | ranging moved failures =>
          refine ⟨?_, fun none => ?_⟩
          · simp [Sweep.count, Sweep.after, Recovery.Outcome.result?, moved]
          · simp [Sweep.after, Recovery.Outcome.failures] at none
  | restored count =>
      cases seeks with
      | restoring looked counted unique claimed rest =>
          refine ⟨?_, fun none => ⟨_, (Sweep.looked_restoring _ _).trans looked,
            fun x s score => ?_⟩⟩
          · have quiet : (if count = 0 then [] else [Event.recoveredTotal count]).filterMap
                Event.recovered? = [] := by split <;> rfl
            simp only [Sweep.count, Sweep.after, Recovery.Outcome.result?, quiet,
              List.append_nil]
            exact counted
          · have none := Nat.eq_zero_of_le_zero (Nat.le_trans Sweep.failures_le (Nat.le_of_eq none))
            rw [Bool.eq_false_iff]
            exact fun low => List.not_mem_nil (rest none x s score low)

theorem Over.mono {scores scores' : String → Option Binary64} {cutoffAt : Instant → Binary64}
    (ended : Over scores cutoffAt w) (shrunk : ∀ x s, scores' x = some s → scores x = some s) :
    Over scores' cutoffAt w where
  counted := ended.counted
  cleared none := by
    obtain ⟨t, looked, clear⟩ := ended.cleared none
    exact ⟨t, looked, fun x s score => clear x s (shrunk x s score)⟩

/-- A claim that is there was there at first, and was not moved. -/
theorem Kept.score?_eq (kept : Kept p₀ p) (x : String) :
    p.score? x = if x ∈ p.moved then none else p₀.score? x := by
  rw [score?, score?, ← kept.keys]
  exact kept.contents.claims x

theorem Kept.claimed_of_score? (kept : Kept p₀ p) {x : String} (h : (p.score? x).isSome = true) :
    x ∉ p.moved ∧ (p₀.score? x).isSome = true := by
  rw [kept.score?_eq] at h
  split at h
  · cases h
  · next other => exact ⟨other, h⟩

theorem Kept.sweepTo (kept : Kept p₀ p) {next : Instant} (current : p.current = some w)
    (then_due : Sweeper.nextTick p.period w.due w.begun = some next)
    (seeks : Seeks p.score? p.cutoffAt w r) (steps : p.Steps r o m' es) :
    Kept p₀ (p.sweepTo m' o next (w.after p.now r o es)) := by
  obtain ⟨claimed, unique⟩ := claimed_of_steps seeks steps
  have moved : (p.sweepTo m' o next (w.after p.now r o es)).moved =
      p.moved ++ es.filterMap Event.recovered? := moved_sweepTo current
  have mono (v : Sweep) (ended : Over p.score? p.cutoffAt v) :
      Over (m'.contents.score? p.keys.processing) p.cutoffAt v :=
    ended.mono fun x s => score?_of_score? steps
  refine ⟨kept.keys, kept.epoch, kept.config, ?_, ?_, ?_, ?_, ?_, ?_, ?_⟩
  · rw [moved]
    exact kept.contents.trans (Recovery.Steps.putBack steps)
  · rw [moved]
    intro x hx
    rcases List.mem_append.mp hx with hx | hx
    · exact kept.claimed x hx
    · exact (kept.claimed_of_score? (claimed x hx)).2
  · rw [moved]
    refine List.nodup_append.mpr ⟨kept.unique, unique, fun x before y now same => ?_⟩
    exact (kept.claimed_of_score? (claimed y now)).1 (same ▸ before)
  · have before := kept.failures
    have step : (w.after p.now r o es).failures + armed m' = w.failures + armed p.memory :=
      Sweep.failures_after steps
    rw [sweeps_of_current current, List.map_append, List.sum_append] at before
    rw [sweeps_sweepTo, List.map_append, List.sum_append]
    simp only [List.map_cons, List.map_nil, List.sum_singleton] at before ⊢
    show _ + armed m' ≤ p.injected
    omega
  · intro v hv
    cases o with
    | going => exact mono v (kept.ended v hv)
    | done =>
        rcases List.mem_append.mp hv with hv | hv
        · exact mono v (kept.ended v hv)
        · cases List.mem_singleton.mp hv
          exact (over_of_done seeks steps :)
  · have timed := kept.timed
    rw [sweeps_of_current current] at timed
    rw [sweeps_sweepTo]
    refine timed.goOn rfl rfl ?_
    by_cases ranging : r = .ranging
    · exact .inr (if_pos ranging)
    · exact .inl (if_neg ranging)
  · cases o with
    | going r' => exact .sweeping rfl rfl then_due (seeks_of_going seeks steps :)
    | done result =>
        refine .waiting rfl rfl ⟨fun none => absurd none (by simp [Patrol.sweepTo]), ?_⟩
        intro v last
        rw [Patrol.sweepTo, List.getLast?_concat] at last
        cases last
        exact then_due

/-! ### Runs -/

theorem DueAt.of_same {tick : Instant} (due : p.DueAt tick) (ended : q.ended = p.ended)
    (started : q.started = p.started) (period : q.period = p.period) : q.DueAt tick where
  first := by
    rw [ended, started]
    exact due.first
  next := by
    rw [ended, period]
    exact due.next

theorem Stands.of_same (stands : Stands p) (q : Patrol) (stage : q.stage = p.stage)
    (ended : q.ended = p.ended) (current : q.current = p.current) (started : q.started = p.started)
    (period : q.period = p.period) (scores : q.score? = p.score?)
    (cutoffs : q.cutoffAt = p.cutoffAt)
    (cancelled : p.cancelled = true → q.cancelled = true) (later : p.now ≤ q.now) : Stands q := by
  cases stands with
  | starting at_stage none idle =>
      exact .starting (stage.trans at_stage) (ended.trans none) (current.trans idle)
  | waiting at_stage idle due =>
      exact .waiting (stage.trans at_stage) (current.trans idle) (due.of_same ended started period)
  | sweeping at_stage busy then_due seeks =>
      refine .sweeping (stage.trans at_stage) (current.trans busy) (by rw [period, then_due]) ?_
      rw [scores, cutoffs]
      exact seeks
  | leaving at_stage idle gone =>
      exact .leaving (by rwa [stage]) (current.trans idle) (cancelled gone)
  | panicked at_stage idle due past lost =>
      exact .panicked (stage.trans at_stage) (current.trans idle)
        (due.of_same ended started period) (Nat.le_trans past later) (by rw [period, lost])

theorem Kept.failNext (kept : Kept p₀ p) (point : FaultPoint) (count : Nat)
    (step : p.perform (.failNext point count) = some q) : Kept p₀ q := by
  cases step
  have armed_le : armed (p.memory.failNext point count) ≤
      armed p.memory + if point = .zrangebyscore ∨ point = .exec then count else 0 := by
    cases point with
    | zrangebyscore | exec =>
        simp only [armed, Memory.faults_failNext, reduceCtorEq, if_false, if_true, or_true, true_or]
        omega
    | blpop | lpush | hget | zadd => exact Nat.le_refl _
  exact { kept with
    failures := Nat.le_trans (Nat.add_le_add_left armed_le _) <| by
      rw [← Nat.add_assoc]
      exact Nat.add_le_add_right kept.failures _
    stands := kept.stands.of_same _ rfl rfl rfl rfl rfl rfl rfl id (Nat.le_refl _) }

theorem Kept.start (kept : Kept p₀ p) (stage : p.stage = .starting) (fresh : p.ended = [])
    (idle : p.current = none) : Kept p₀ (p.moveTo (.waiting p.now) p.memory) := by
  have timed : Timed p.period (some p.now) p.now p.sweeps := by
    rw [sweeps, fresh, idle]
    exact .nil
  have due : ({ p with started := some p.now }).DueAt p.now :=
    ⟨fun _ => rfl, fun w last => by simp [fresh] at last⟩
  simp only [moveTo, stage]
  exact { kept with
    timed
    stands := .waiting rfl idle ⟨due.first, due.next⟩ }

theorem Kept.sweep (kept : Kept p₀ p) {tick next : Instant} (stage : p.stage = .waiting tick)
    (idle : p.current = none) (due : p.DueAt tick) (come : tick ≤ p.now)
    (then_due : Sweeper.nextTick p.period tick p.now = some next) :
    Kept p₀ (p.moveTo (.sweeping .ranging next) p.memory) := by
  have before : p.sweeps = p.ended := by rw [sweeps, idle, Option.toList_none, List.append_nil]
  have moved : p.moved =
      (p.ended ++ [({ due := tick, begun := p.now } : Sweep)]).flatMap Sweep.moved := by
    rw [Patrol.moved, before, List.flatMap_append]
    exact (List.append_nil _).symm
  have failures : (p.sweeps.map Sweep.failures).sum =
      ((p.ended ++ [({ due := tick, begun := p.now } : Sweep)]).map Sweep.failures).sum := by
    rw [before, List.map_append, List.sum_append]
    rfl
  obtain ⟨keys, epoch, config, contents, claimed, unique, bound, ended, timed, -⟩ := kept
  rw [moved] at contents claimed unique
  rw [failures] at bound
  rw [before] at timed
  simp only [moveTo, stage]
  exact {
    keys
    epoch
    config
    contents
    claimed
    unique
    failures := bound
    ended
    timed := timed.begin come due.first due.next
    stands := .sweeping rfl rfl then_due (.ranging rfl rfl) }

theorem Kept.step (kept : Kept p₀ p) {heeds : Bool} (step : p.perform (.step heeds) = some q) :
    Kept p₀ q := by
  cases fair : heeds && !p.cancelled with
  | true => simp [Patrol.perform, fair] at step
  | false =>
    cases kept.stands with
    | starting stage ended current =>
        have at_stage : p.sweeper.stage = .starting := stage
        simp only [Patrol.perform, fair, Sweeper.step, at_stage, Bool.false_eq_true,
          if_false] at step
        cases step
        exact kept.start stage ended current
    | @waiting tick stage current due =>
        have at_stage : p.sweeper.stage = .waiting tick := stage
        simp only [Patrol.perform, fair, Sweeper.step, at_stage, Bool.false_eq_true,
          if_false] at step
        cases heeds with
        | true =>
            rw [if_pos rfl] at step
            cases step
            have cancelled : p.cancelled = true := by simpa using fair
            simp only [moveTo, stage]
            exact { kept with
              stands := .leaving (.inl rfl) current cancelled }
        | false =>
            rw [if_neg Bool.false_ne_true] at step
            rcases Decidable.em (tick ≤ p.now) with come | early
            · rw [if_pos come] at step
              cases then_due : Sweeper.nextTick p.sweeper.config.period tick p.now with
              | some next =>
                  rw [then_due] at step
                  cases step
                  exact kept.sweep stage current due come then_due
              | none =>
                  rw [then_due] at step
                  cases step
                  simp only [moveTo, stage]
                  exact { kept with
                    stands := .panicked rfl current ⟨due.first, due.next⟩ (Nat.le_refl _)
                      then_due }
            · rw [if_neg early] at step
              cases step
    | sweeping stage current then_due seeks =>
        cases recovery : p.recover _ with | mk o rest =>
        rw [perform_sweeping stage current fair recovery] at step
        cases step
        exact kept.sweepTo current then_due seeks (Recovery.steps recovery)
    | leaving stage current cancelled =>
        rcases stage with stage | stage
        · have at_stage : p.sweeper.stage = .stopping := stage
          simp only [Patrol.perform, fair, Sweeper.step, at_stage, Bool.false_eq_true,
            if_false] at step
          cases step
          simp only [moveTo, stage]
          exact { kept with
            stands := .leaving (.inr rfl) current cancelled }
        · have at_stage : p.sweeper.stage = .stopped := stage
          simp only [Patrol.perform, fair, Sweeper.step, at_stage, Bool.false_eq_true,
            if_false] at step
          cases step
    | panicked stage =>
        have at_stage : p.sweeper.stage = .panicked := stage
        simp only [Patrol.perform, fair, Sweeper.step, at_stage, Bool.false_eq_true,
          if_false] at step
        cases step

theorem Kept.perform (kept : Kept p₀ p) {beat : Beat} (step : p.perform beat = some q) :
    Kept p₀ q := by
  cases beat with
  | step heeds => exact kept.step step
  | elapse t =>
      cases step
      exact { kept with
        timed := kept.timed.elapse (Nat.le_max_left _ _)
        stands := kept.stands.of_same _ rfl rfl rfl rfl rfl rfl rfl id (Nat.le_max_left _ _) }
  | cancel =>
      cases step
      exact { kept with
        stands := kept.stands.of_same _ rfl rfl rfl rfl rfl rfl rfl (fun _ => rfl)
          (Nat.le_refl _) }
  | failNext point count => exact kept.failNext point count step

theorem Kept.run (kept : Kept p₀ p) {beats : List Beat} (runs : p.run beats = some q) :
    Kept p₀ q := by
  induction beats generalizing p with
  | nil =>
      cases runs
      exact kept
  | cons beat rest ih =>
      obtain ⟨next, step, rest⟩ := Option.bind_eq_some_iff.mp runs
      exact ih (kept.perform step) rest

end Patrol

end ReliableQueue.Queue
