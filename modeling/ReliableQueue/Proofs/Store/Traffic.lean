import ReliableQueue.Proofs.Lists
import ReliableQueue.Proofs.Store.Memory
import ReliableQueue.Scenario.StoreTrial

/-!
Traffic on one store in memory: pops that wait among other calls, failures and the passing of time.
A pop registers for the next push and then looks at its list, in two steps, so that anything can come
in between; having found nothing it waits until there was a push since it registered, or until its
deadline has come. What happened is kept as a list of deeds, from which the lists of the store follow.
-/

namespace ReliableQueue.Store

open Scenario (StoreCall)

/-! ### Traffic -/

/-- What happened on a store. -/
inductive Deed where
  /-- A pop was started; the clock may not have its deadline. -/
  | asked (i : Nat) (key : String) (deadline : Option Instant)
  | took (i : Nat) (key value : String)
  | failed (i : Nat)
  | gaveUp (i : Nat) (time : Instant)
  | dropped (i : Nat)
  | ran (call : StoreCall)
  | refused (call : StoreCall)
  | armed (point : FaultPoint) (count : Nat)

/-- The pop that a deed tells of. -/
def Deed.pop? : Deed → Option Nat
  | asked i .. | took i .. | failed i | gaveUp i _ | dropped i => some i
  | ran _ | refused _ | armed .. => none

structure Traffic where
  waiters : Waiters
  /-- For the pops that have registered and are to look: the number of pushes when they did. -/
  listening : Nat → Option Nat := fun _ => none
  /-- What happened so far, latest first. -/
  deeds : List Deed := []

/-- What may come next. -/
inductive Move where
  | start (key : String) (timeout : Span)
  /-- A pop registers for the next push. -/
  | listen (i : Nat)
  /-- A pop that has registered looks at its list. -/
  | look (i : Nat)
  /-- A pop that has found nothing returns without a value. -/
  | giveUp (i : Nat)
  | drop (i : Nat)
  /-- Any call that does not wait, with its notification. -/
  | call (call : StoreCall)
  | failNext (point : FaultPoint) (count : Nat)
  | elapse (t : Instant)

namespace Traffic

def begin (now : Instant) (m : Memory) : Traffic := { waiters := { now, memory := m } }

def memory (s : Traffic) : Memory := s.waiters.memory

def list (s : Traffic) (key : String) : List String := s.memory.contents.list key

def deedsOf (s : Traffic) (i : Nat) : List Deed := s.deeds.filter (·.pop? = some i)

def setMemory (s : Traffic) (m : Memory) : Traffic :=
  { s with waiters := { s.waiters with memory := m } }

/-- Sets where pop `i` stands. -/
def setPop (s : Traffic) (i : Nat) (state : PopState) (listening : Option Nat) : Traffic :=
  { s with
    waiters := s.waiters.setPop i state
    listening := fun j => if j = i then listening else s.listening j }

def record (s : Traffic) (deed : Deed) : Traffic := { s with deeds := deed :: s.deeds }

/-- Pop `i` ends, leaving the store at `m`. -/
def finish (s : Traffic) (i : Nat) (m : Memory) (result : Except Error (Option String))
    (deed : Deed) : Traffic :=
  ((s.setMemory m).setPop i (.finished s.waiters.now result) none).record deed

/-- The traffic after a move, if the move can be made. -/
def perform (s : Traffic) : Move → Option Traffic
  | .start key timeout =>
      some ({ s with waiters := s.waiters.start key timeout }.record
        (.asked s.waiters.pops.length key (Clock.after? s.waiters.now timeout)))
  | .listen i =>
      match s.waiters.pops[i]?, s.listening i with
      | some ⟨_, .active p⟩, none =>
          if p.isDue s.memory then some (s.setPop i (.active p) (some s.memory.pushes)) else none
      | _, _ => none
  | .look i =>
      match s.waiters.pops[i]?, s.listening i with
      | some ⟨key, .active p⟩, some n =>
          match s.memory.look key with
          | (.error e, m) => some (s.finish i m (.error e) (.failed i))
          | (.ok (some value), m) => some (s.finish i m (.ok (some value)) (.took i key value))
          | (.ok none, m) =>
              some ((s.setMemory m).setPop i (.active { p with seen := some n }) none)
      | _, _ => none
  | .giveUp i =>
      match s.waiters.pops[i]?, s.listening i with
      | some ⟨_, .active p⟩, none =>
          if !p.isDue s.memory && p.deadline ≤ s.waiters.now then
            some (s.finish i s.memory (.ok none) (.gaveUp i s.waiters.now))
          else none
      | _, _ => none
  | .drop i =>
      match s.waiters.pops[i]? with
      | some ⟨_, .active _⟩ => some ((s.setPop i .dropped none).record (.dropped i))
      | _ => none
  | .call call =>
      match Scenario.StoreTrial.immediate s.memory call with
      | some (.ok _, m) => some ((s.setMemory m).record (.ran call))
      | some (.error _, m) => some ((s.setMemory m).record (.refused call))
      | none => none
  | .failNext point count =>
      some ((s.setMemory (s.memory.failNext point count)).record (.armed point count))
  | .elapse t => some { s with waiters := { s.waiters with now := max s.waiters.now t } }

/-- The traffic after a sequence of moves, if each can be made in its turn. -/
def run (s : Traffic) : List Move → Option Traffic
  | [] => some s
  | move :: rest => (s.perform move).bind (run · rest)

variable {s s' : Traffic} {m : Memory} {i : Nat}

theorem setPop_of_state {w : Waiters} {key : String} {state : PopState}
    (here : w.pops[i]? = some ⟨key, state⟩) : w.setPop i state = w := by
  obtain ⟨bound, get⟩ := List.getElem?_eq_some_iff.mp here
  rw [Waiters.setPop, modify_of_getElem? here, ← get, List.set_getElem_self]

/-- A step of a pop, as it is run, is a look that follows its registration at once, or the end of
its wait. -/
theorem step_eq (idle : s.listening i = none) : s.waiters.step i =
    ((s.run [.listen i, .look i]).or (s.run [.giveUp i])).map waiters := by
  cases here : s.waiters.pops[i]? with
  | none => simp [Waiters.step, run, perform, here]
  | some waiter =>
    obtain ⟨key, state⟩ := waiter
    cases state with
    | finished | dropped | panicked => simp [Waiters.step, run, perform, here]
    | active p =>
      by_cases due : p.isDue s.waiters.memory = true
      · have runs : s.run [.listen i, .look i] =
            (s.setPop i (.active p) (some s.waiters.memory.pushes)).perform (.look i) := by
          simp [run, perform, here, idle, due, memory]
        have same : (s.setPop i (.active p) (some s.waiters.memory.pushes)).waiters = s.waiters :=
          setPop_of_state here
        have registered : (s.setPop i (.active p) (some s.waiters.memory.pushes)).listening i =
            some s.waiters.memory.pushes := if_pos rfl
        cases looked : s.waiters.memory.look key with | mk r m' =>
        simp only [runs, perform, same, here, registered, memory, looked, Waiters.step, Pop.step,
          due, if_true]
        have set (state : PopState) : ({ s.waiters with memory := m' }.setPop i state) =
            (({ (s.setPop i (.active p) (some s.waiters.memory.pushes)).waiters with
              memory := m' } : Waiters).setPop i state) := by rw [same]
        obtain e | none | value := r
        · exact congrArg some (set _)
        · rw [(Memory.look_none looked).2] at set ⊢
          exact congrArg some (set _)
        · exact congrArg some (set _)
      · have stays : s.run [.listen i, .look i] = none := by
          simp [run, perform, here, idle, due, memory]
        rw [stays, Option.none_or]
        by_cases come : p.deadline ≤ s.waiters.now
        · simp [Waiters.step, here, Pop.step, due, run, perform, idle, come, memory]
          rfl
        · simp [Waiters.step, here, Pop.step, due, run, perform, idle, come]

end Traffic

/-! ### What deeds make of the lists -/

/-- The write commands of a call. -/
def commandsOf : StoreCall → List Command
  | .exec batch => batch.commands
  | .lpush key value => [.lpush key value]
  | .blpop .. | .llen .. | .hget .. | .zadd .. | .zrangebyscore .. | .zcard .. | .list ..
  | .score .. | .hashLength .. => []

namespace Command

/-- What a write command makes of the list under `key`. -/
def onList (key : String) (l : List String) : Command → List String
  | .rpush k values => if k = key then l ++ values else l
  | .lpush k value => if k = key then value :: l else l
  | .hset .. | .hdel .. | .zrem .. => l

/-- The values that a write command adds to the list under `key`. -/
def added (key : String) : Command → List String
  | .rpush k values => if k = key then values else []
  | .lpush k value => if k = key then [value] else []
  | .hset .. | .hdel .. | .zrem .. => []

theorem list_apply (c : Contents) (key : String) (command : Command) :
    (c.apply command).list key = onList key (c.list key) command := by
  cases command <;> simp only [onList, Contents.list_rpush, Contents.list_lpush,
    Contents.list_hset, Contents.list_hdel, Contents.list_zrem, eq_comm (a := key)]

theorem list_applyAll (c : Contents) (key : String) (commands : List Command) :
    (c.applyAll commands).list key = commands.foldl (onList key) (c.list key) := by
  induction commands generalizing c with
  | nil => rfl
  | cons command rest ih =>
      rw [Contents.applyAll_cons, ih, list_apply, List.foldl_cons]

theorem count_onList (key v : String) (l : List String) (command : Command) :
    (command.onList key l).count v = l.count v + (command.added key).count v := by
  cases command with
  | rpush k values => by_cases eq : k = key <;> simp [onList, added, eq]
  | lpush k value => by_cases eq : k = key <;> simp [onList, added, eq, List.count_cons]
  | hset | hdel | zrem => rfl

theorem foldl_onList_of_no_push (key : String) (l : List String) {commands : List Command}
    (h : commands.any isPush = false) : commands.foldl (onList key) l = l := by
  induction commands with
  | nil => rfl
  | cons command rest ih =>
      rw [List.any_cons, Bool.or_eq_false_iff] at h
      rw [List.foldl_cons]
      cases command with
      | rpush | lpush => cases h.1
      | hset | hdel | zrem => exact ih h.2

end Command

namespace Memory

/-- What a call that does not wait makes of a store, as far as pops can tell: its commands have run,
and there was a push if a list changed. -/
structure Ran (m : Memory) (commands : List Command) (m' : Memory) : Prop where
  lists : ∀ key, m'.contents.list key =
    commands.foldl (Command.onList key) (m.contents.list key)
  failures : m'.faults .blpop = m.faults .blpop
  pushes : m.pushes ≤ m'.pushes
  announced : m'.pushes = m.pushes → ∀ key, m'.contents.list key = m.contents.list key

variable {m m' : Memory}

theorem Ran.refl (m : Memory) : m.Ran [] m :=
  ⟨fun _ => rfl, rfl, Nat.le_refl _, fun _ _ => rfl⟩

theorem ran_guarded {α : Type} {point : FaultPoint} {act : Memory → α × Memory}
    {commands : List Command} (other : point ≠ .blpop) (acts : m.Ran commands (act m).2) :
    m.Ran (if (m.guarded point act).1.isOk then commands else []) (m.guarded point act).2 := by
  cases left : m.faults point with
  | zero =>
      rw [guarded_of_none left]
      exact acts
  | succ n =>
      rw [guarded_of_some left]
      exact ⟨fun _ => rfl, if_neg (Ne.symm other), Nat.le_refl _, fun _ _ => rfl⟩

theorem ran_exec (m : Memory) (batch : Batch) :
    m.Ran (if (m.exec batch).1.isOk then batch.commands else []) (m.exec batch).2 := by
  unfold exec
  split
  · next none =>
      have none : batch.commands = [] := by simpa [Batch.isEmpty] using none
      rw [none]
      exact Ran.refl m
  · refine ran_guarded (by decide) ?_
    have lists (key : String) := Command.list_applyAll m.contents key batch.commands
    dsimp only
    split
    · exact ⟨lists, rfl, Nat.le_succ _, fun same => absurd same (Nat.succ_ne_self _)⟩
    · next quiet =>
        exact ⟨lists, rfl, Nat.le_refl _, fun _ key => (lists key).trans
          (Command.foldl_onList_of_no_push key _ (Bool.eq_false_iff.mpr quiet))⟩

theorem ran_lpush (m : Memory) (key value : String) :
    m.Ran (if (m.lpush key value).1.isOk then [.lpush key value] else [])
      (m.lpush key value).2 :=
  ran_guarded (by decide) ⟨fun k => Command.list_apply m.contents k (.lpush key value), rfl,
    Nat.le_succ _, fun same => absurd same (Nat.succ_ne_self _)⟩

/-- What a caller is told does not matter to the store. -/
theorem Ran.answered {α : Type} {commands : List Command} {p : Except Error α × Memory}
    {answer : α → Scenario.StoreReply} {r : Scenario.StoreResult}
    (ran : m.Ran (if p.1.isOk then commands else []) p.2)
    (h : some (p.1.map answer, p.2) = some (r, m')) :
    m.Ran (if r.isOk then commands else []) m' := by
  cases h
  obtain ⟨_ | _, _⟩ := p <;> exact ran

theorem ran_immediate {call : StoreCall} {r : Scenario.StoreResult}
    (h : Scenario.StoreTrial.immediate m call = some (r, m')) :
    m.Ran (if r.isOk then commandsOf call else []) m' := by
  cases call with
  | blpop => cases h
  | exec batch => exact (ran_exec m batch).answered h
  | lpush key value => exact (ran_lpush m key value).answered h
  | hget key field =>
      have ran : m.Ran (if (m.hget key field).1.isOk then [] else []) (m.hget key field).2 :=
        ran_guarded (by decide) (Ran.refl m)
      exact ran.answered h
  | zadd key member score =>
      have ran : m.Ran (if (m.zadd key member score).1.isOk then [] else [])
          (m.zadd key member score).2 :=
        ran_guarded (by decide) ⟨fun _ => rfl, rfl, Nat.le_refl _, fun _ _ => rfl⟩
      exact ran.answered h
  | zrangebyscore key max =>
      have ran : m.Ran (if (m.zrangebyscore key max).1.isOk then [] else [])
          (m.zrangebyscore key max).2 :=
        ran_guarded (by decide) (Ran.refl m)
      exact ran.answered h
  | llen | zcard | list | score | hashLength =>
      cases h
      exact Ran.refl m

end Memory

namespace Deed

/-- What a deed makes of the list under `key`. -/
def onList (key : String) : Deed → List String → List String
  | took _ k _, l => if k = key then l.tail else l
  | ran call, l => (commandsOf call).foldl (Command.onList key) l
  | asked .., l | failed _, l | gaveUp .., l | dropped _, l | refused _, l | armed .., l => l

/-- The list under `key` after deeds, having been `l` before the first of them. -/
def listAfter (key : String) (l : List String) (deeds : List Deed) : List String :=
  deeds.foldr (onList key) l

/-- What a deed makes of the number of failures left for pops. -/
def onFailures : Deed → Nat → Nat
  | armed point count, n => if point = .blpop then count else n
  | failed _, n => n - 1
  | asked .., n | took .., n | gaveUp .., n | dropped _, n | ran _, n | refused _, n => n

def failuresAfter (n : Nat) (deeds : List Deed) : Nat := deeds.foldr onFailures n

/-- The values that a deed adds to the list under `key`. -/
def adds (key : String) : Deed → List String
  | ran call => (commandsOf call).flatMap (Command.added key)
  | asked .. | took .. | failed _ | gaveUp .. | dropped _ | refused _ | armed .. => []

/-- The values that a deed takes from the list under `key`. -/
def takes (key : String) : Deed → List String
  | took _ k value => if k = key then [value] else []
  | asked .. | failed _ | gaveUp .. | dropped _ | ran _ | refused _ | armed .. => []

/-- A pop takes the head of its list as it is then; it gives up only at its deadline or later and
beside an empty list; and it fails only with a failure that is left. -/
def Right (m : Memory) (past : List Deed) : Deed → Prop
  | took _ key value => ∃ rest, listAfter key (m.contents.list key) past = value :: rest
  | gaveUp i time => ∃ key deadline, asked i key (some deadline) ∈ past ∧ deadline ≤ time ∧
      listAfter key (m.contents.list key) past = []
  | failed _ => failuresAfter (m.faults .blpop) past ≠ 0
  | asked .. | dropped _ | ran _ | refused _ | armed .. => True

theorem onList_nil {d : Deed} {i : Nat} (h : d.pop? = some i) (key : String) :
    d.onList key [] = [] := by
  cases d with
  | took j k value => exact ite_self []
  | asked | failed | gaveUp | dropped => rfl
  | ran | refused | armed => cases h

theorem count_commands (key v : String) (l : List String) (commands : List Command) :
    (commands.foldl (Command.onList key) l).count v =
      l.count v + (commands.flatMap (Command.added key)).count v := by
  induction commands generalizing l with
  | nil => rfl
  | cons command rest ih =>
      rw [List.foldl_cons, ih, Command.count_onList, List.flatMap_cons, List.count_append]
      omega

/-- A deed that is right neither loses a value nor makes one. -/
theorem Right.count {m : Memory} {past : List Deed} {d : Deed} (h : d.Right m past)
    (key v : String) :
    (listAfter key (m.contents.list key) (d :: past)).count v + (d.takes key).count v =
      (listAfter key (m.contents.list key) past).count v + (d.adds key).count v := by
  rw [listAfter, List.foldr_cons, ← listAfter]
  cases d with
  | took i k value =>
      obtain ⟨rest, head⟩ := h
      by_cases eq : k = key
      · subst eq
        rw [onList, if_pos rfl, takes, if_pos rfl, head, List.tail_cons, List.count_cons,
          List.count_cons, List.count_nil, Nat.zero_add]
        rfl
      · rw [onList, if_neg eq, takes, if_neg eq]
        rfl
  | ran call => exact count_commands key v _ (commandsOf call)
  | asked | failed | gaveUp | dropped | refused | armed => rfl

/-- Where every deed was right, no value is lost and none comes twice. -/
theorem count_listAfter {m : Memory} {deeds : List Deed}
    (right : ∀ later d past, deeds = later ++ d :: past → d.Right m past) (key v : String) :
    (listAfter key (m.contents.list key) deeds).count v + (deeds.flatMap (takes key)).count v =
      (m.contents.list key).count v + (deeds.flatMap (adds key)).count v := by
  induction deeds with
  | nil => rfl
  | cons d past ih =>
      have before := ih fun later e rest eq => right (d :: later) e rest (congrArg (d :: ·) eq)
      have now := (right [] d past rfl).count key v
      rw [List.flatMap_cons, List.flatMap_cons, List.count_append, List.count_append]
      omega

end Deed

end ReliableQueue.Store
