import ReliableQueue.Proofs.Redis.Keyspace
import ReliableQueue.Proofs.Store.Answers

/-!
Calls on a store in memory against plain functions from keys to what they hold. A call fails
exactly if a failure is left for it, and then does nothing but use that failure up; any other
call answers from the functions and changes them at the keys that it writes, and nowhere else.
-/

namespace ReliableQueue

/-- The names for which `f` has a value, each once. -/
structure Domain {α : Type} (f : String → Option α) (names : List String) : Prop where
  once : names.Nodup
  mem : ∀ x, x ∈ names ↔ (f x).isSome = true

theorem Table.domain {α : Type} (t : Table α) : Domain t.get? t.keys where
  once := t.distinct
  mem x := by
    rw [get?, List.lookup_isSome_iff, keys, List.mem_map]
    simp only [beq_iff_eq, eq_comm (a := x)]

namespace Store

open Scenario (StoreCall StoreReply StoreResult StoreTrial.immediate)
open Text (Bytes)

/-! ### What a store says -/

/-- What is read from a store: the list under a key, the score of a member, the value of a
field. -/
structure View where
  list : String → List String
  score? : String → String → Option Binary64
  field? : String → String → Option Bytes

namespace View

def setList (v : View) (key : String) (values : List String) : View :=
  { v with list := fun k => if k = key then values else v.list k }

def setScore (v : View) (key member : String) (score : Option Binary64) : View :=
  { v with score? := fun k m => if k = key ∧ m = member then score else v.score? k m }

def setField (v : View) (key field : String) (value : Option Bytes) : View :=
  { v with field? := fun k f => if k = key ∧ f = field then value else v.field? k f }

/-- What a write command leaves. Keys need not be there before, and what is not there can be
removed as well. -/
def apply (v : View) : Command → View
  | .rpush key values => v.setList key (v.list key ++ values)
  | .lpush key value => v.setList key (value :: v.list key)
  | .hset key field value => v.setField key field (some value)
  | .hdel key field => v.setField key field none
  | .zrem key member => v.setScore key member none

/-- What a call leaves that does not fail. -/
def after (v : View) : StoreCall → View
  | .exec batch => batch.commands.foldl apply v
  | .blpop key _ => v.setList key (v.list key).tail
  | .lpush key value => v.setList key (value :: v.list key)
  | .zadd key member score => v.setScore key member (some score)
  | .llen _ | .hget .. | .zrangebyscore .. | .zcard _ | .list _ | .score .. | .hashLength _ => v

/-- What a call is answered with that does not fail. -/
inductive Answers (v : View) : StoreCall → StoreReply → Prop where
  | exec (batch : Batch) : Answers v (.exec batch) .done
  | blpop (key : String) (timeout : Span) :
      Answers v (.blpop key timeout) (.value (v.list key).head?)
  | lpush (key value : String) : Answers v (.lpush key value) .done
  | llen (key : String) : Answers v (.llen key) (.number (v.list key).length)
  | hget (key field : String) : Answers v (.hget key field) (.bytes (v.field? key field))
  | zadd (key member : String) (score : Binary64) : Answers v (.zadd key member score) .done
  | zrangebyscore {key : String} {max : Binary64} {ids : List String}
      (mem : ∀ x, x ∈ ids ↔ ∃ s, v.score? key x = some s ∧ s.le max = true)
      (ordered : ids.Pairwise fun x y => ∃ s t, v.score? key x = some s ∧
        v.score? key y = some t ∧ (s.totalKey < t.totalKey ∨ s.totalKey = t.totalKey ∧ x < y)) :
      Answers v (.zrangebyscore key max) (.values ids)
  | zcard {key : String} {members : List String} (domain : Domain (v.score? key) members) :
      Answers v (.zcard key) (.number members.length)
  | list (key : String) : Answers v (.list key) (.values (v.list key))
  | score (key member : String) : Answers v (.score key member) (.score (v.score? key member))
  | hashLength {key : String} {fields : List String} (domain : Domain (v.field? key) fields) :
      Answers v (.hashLength key) (.number fields.length)

end View

namespace Contents

def view (c : Contents) : View := ⟨c.list, c.score?, c.field?⟩

theorem view_setList (c : Contents) (key : String) (values : List String) :
    (c.setList key values).view = c.view.setList key values := by
  refine View.mk.injEq .. ▸ ⟨?_, rfl, rfl⟩
  funext k
  exact c.list_setList key k values

theorem view_setScore (c : Contents) (key member : String) (score : Binary64) :
    (c.setScore key member score).view = c.view.setScore key member (some score) := by
  refine View.mk.injEq .. ▸ ⟨rfl, ?_, rfl⟩
  funext k m
  exact c.score?_setScore key k member m score

theorem view_apply (c : Contents) (command : Command) :
    (c.apply command).view = c.view.apply command := by
  cases command with
  | rpush key values => exact c.view_setList key (c.list key ++ values)
  | lpush key value => exact c.view_setList key (value :: c.list key)
  | hset key field value =>
      refine View.mk.injEq .. ▸ ⟨rfl, rfl, ?_⟩
      funext k f
      exact c.field?_hset key k field f value
  | hdel key field =>
      refine View.mk.injEq .. ▸ ⟨rfl, rfl, ?_⟩
      funext k f
      exact c.field?_hdel key k field f
  | zrem key member =>
      refine View.mk.injEq .. ▸ ⟨rfl, ?_, rfl⟩
      funext k m
      exact c.score?_zrem key k member m

theorem view_applyAll (commands : List Command) (c : Contents) :
    (c.applyAll commands).view = commands.foldl View.apply c.view := by
  induction commands generalizing c with
  | nil => rfl
  | cons command rest ih => rw [applyAll_cons, ih, view_apply, List.foldl_cons]

theorem view_answer (c : Contents) (call : StoreCall) :
    (c.answer call).2.view = c.view.after call := by
  cases call with
  | exec batch => exact view_applyAll batch.commands c
  | blpop key timeout =>
      cases list : c.list key with
      | nil =>
          rw [answer_of_nil timeout list, View.after, show c.view.list key = [] from list]
          refine View.mk.injEq .. ▸ ⟨?_, rfl, rfl⟩
          funext k
          split
          · next same => rw [same, list, List.tail_nil]
          · rfl
      | cons x rest =>
          rw [answer_of_cons timeout list, View.after, show c.view.list key = x :: rest from list]
          exact c.view_setList key rest
  | lpush key value => exact c.view_setList key (value :: c.list key)
  | zadd key member score => exact c.view_setScore key member score
  | llen | hget | zrangebyscore | zcard | list | score | hashLength => rfl

theorem answers_answer (c : Contents) (call : StoreCall) :
    c.view.Answers call (c.answer call).1 := by
  cases call with
  | blpop key timeout =>
      have popped : (c.answer (.blpop key timeout)).1 = .value (c.list key).head? := by
        cases list : c.list key with
        | nil => rw [answer_of_nil timeout list, List.head?_nil]
        | cons x rest => rw [answer_of_cons timeout list, List.head?_cons]
      rw [popped]
      exact .blpop key timeout
  | zrangebyscore key max =>
      have range := c.isRange_range key max
      exact .zrangebyscore range.mem range.ordered
  | zcard key =>
      have counted : c.view.Answers (.zcard key) _ := .zcard (c.sortedSet key).domain
      rw [Table.keys, List.length_map] at counted
      exact counted
  | hashLength key =>
      have counted : c.view.Answers (.hashLength key) _ := .hashLength (c.hash key).domain
      rw [Table.keys, List.length_map] at counted
      exact counted
  | exec batch => exact .exec batch
  | lpush key value => exact .lpush key value
  | llen key => exact .llen key
  | hget key field => exact .hget key field
  | zadd key member score => exact .zadd key member score
  | list key => exact .list key
  | score key member => exact .score key member

end Contents

/-- The keys that a call may write to, each with the type under which it does. -/
def written : StoreCall → List (String × Kind)
  | .exec batch => batch.commands.map fun command => (command.key, command.kind)
  | .blpop key _ | .lpush key _ => [(key, .list)]
  | .zadd key _ _ => [(key, .sorted)]
  | .llen _ | .hget .. | .zrangebyscore .. | .zcard _ | .list _ | .score .. | .hashLength _ => []

/-- Any other key, and the same key under another type, stays as it is. -/
theorem Contents.value_answer_of_unwritten (c : Contents) {call : StoreCall} {x : String}
    {kind : Kind} (other : (x, kind) ∉ written call) :
    (c.answer call).2.value kind x = c.value kind x := by
  cases call with
  | exec batch =>
      refine value_applyAll batch.commands (fun command hc same => other ?_) c
      exact List.mem_map.mpr ⟨command, hc, same.symm⟩
  | blpop key timeout =>
      cases list : c.list key with
      | nil => rw [answer_of_nil timeout list]
      | cons value rest =>
          rw [answer_of_cons timeout list]
          refine (c.value_put key x (.list rest) kind).trans (if_neg ?_)
          rintro ⟨rfl, rfl⟩
          exact other (List.mem_singleton_self _)
  | lpush key value =>
      exact c.value_apply (.lpush key value) fun same => other (List.mem_singleton.mpr same)
  | zadd key member score =>
      refine (c.value_put key x (.sorted _) kind).trans (if_neg ?_)
      rintro ⟨rfl, rfl⟩
      exact other (List.mem_singleton_self _)
  | llen | hget | zrangebyscore | zcard | list | score | hashLength => rfl

/-! ### Calls that fail -/

theorem Memory.immediate_of_armed {m : Memory} {call : StoreCall} {p : FaultPoint} {n : Nat}
    (place : point? call = some p) (left : m.faults p = n + 1)
    (at_once : ∀ key timeout, call ≠ .blpop key timeout) :
    StoreTrial.immediate m call = some (.error (.injected p.name), m.failNext p n) := by
  cases call with
  | exec batch =>
      cases none : batch.isEmpty with
      | true =>
          rw [point?, none] at place
          cases place
      | false =>
          rw [point?, none] at place
          cases place
          rw [StoreTrial.immediate, exec_of_some left none]
          rfl
  | blpop key timeout => exact absurd rfl (at_once key timeout)
  | lpush | hget | zadd | zrangebyscore =>
      cases place
      simp only [StoreTrial.immediate, lpush, hget, zadd, zrangebyscore, guarded_of_some left]
      rfl
  | llen | zcard | list | score | hashLength => cases place

theorem Memory.look_of_armed {m : Memory} {n : Nat} (left : m.faults .blpop = n + 1)
    (key : String) : m.look key = (.error (.injected "blpop"), m.failNext .blpop n) :=
  guarded_of_some left _

/-- Where a pop stands that is to fail, with the store beside it. -/
inductive Pop.Failing (m : Memory) (n : Nat) : PopState → Memory → Prop where
  | new (deadline : Instant) : Failing m n (.active { deadline }) m
  | failed (t : Instant) :
      Failing m n (.finished t (.error (.injected "blpop"))) (m.failNext .blpop n)
  | panicked : Failing m n .panicked m

theorem Pop.Failing.kept {m : Memory} {n : Nat} (left : m.faults .blpop = n + 1) (key : String) :
    Keeps key (Failing m n) := by
  intro p now o memory memory' h step
  cases h with
  | new deadline =>
      rw [Pop.step, if_pos (by rfl), Memory.look_of_armed left key] at step
      cases step
      exact .failed now

namespace Waiters

variable {w v u : Waiters} {call : StoreCall} {r : StoreResult}

/-- A call for which a failure is left fails and uses it up. -/
theorem Called.refused {p : FaultPoint} {n : Nat} (h : w.Called call r v)
    (place : point? call = some p) (left : w.memory.faults p = n + 1) :
    r = .error (.injected p.name) ∧ v.memory = w.memory.failNext p n := by
  cases h with
  | at_once immediate =>
      have refused := Memory.immediate_of_armed place left fun key timeout pop => by
        rw [pop] at immediate
        cases immediate
      rw [refused] at immediate
      cases immediate
      exact ⟨rfl, rfl⟩
  | waited goes ended =>
      cases place
      obtain ⟨state, at_n, failing⟩ := goes.stands (Pop.Failing.kept left _)
        (stands_start _ .new .panicked)
      rw [state?, at_n] at ended
      obtain rfl := Option.some.inj ended
      generalize v.memory = memory at failing ⊢
      cases failing
      exact ⟨rfl, rfl⟩

/-- The call needs no time: it is no pop, or a pop that fails or finds a value. -/
def Ready (w : Waiters) (call : StoreCall) : Prop :=
  ∀ key timeout, call = .blpop key timeout → (Clock.after? w.now timeout).isSome = true ∧
    (w.memory.faults .blpop ≠ 0 ∨ w.memory.contents.list key ≠ [])

theorem called_of_step {key : String} {timeout : Span} {deadline : Instant}
    {result : Except Error (Option String)} {memory : Memory}
    (clock : Clock.after? w.now timeout = some deadline)
    (step : ({ deadline } : Pop).step key w.now w.memory = some (.done result, memory)) :
    ∃ v, w.Called (.blpop key timeout) (result.map .value) v ∧ v.now = w.now := by
  have at_n : (w.start key timeout).pops[w.pops.length]? = some ⟨key, .active { deadline }⟩ := by
    rw [start_of_some clock]
    exact List.getElem?_concat_length
  refine ⟨_, .waited (.step .refl (step_of_active at_n step)) (t := w.now) ?_, rfl⟩
  simp [state?, setPop, Pop.Outcome.state, start]

theorem called_of_ready (ready : w.Ready call) : ∃ r v, w.Called call r v ∧ v.now = w.now := by
  by_cases pop : ∃ key timeout, call = .blpop key timeout
  · obtain ⟨key, timeout, rfl⟩ := pop
    obtain ⟨clock, there⟩ := ready key timeout rfl
    obtain ⟨deadline, clock⟩ := Option.isSome_iff_exists.mp clock
    obtain ⟨result, memory, step⟩ : ∃ result memory,
        ({ deadline } : Pop).step key w.now w.memory = some (.done result, memory) := by
      cases left : w.memory.faults .blpop with
      | succ n =>
          refine ⟨.error (.injected "blpop"), w.memory.failNext .blpop n, ?_⟩
          rw [Pop.step, if_pos (by rfl), Memory.look_of_armed left key]
      | zero =>
          cases list : w.memory.contents.list key with
          | nil => exact absurd list (there.resolve_left fun some => some left)
          | cons x rest =>
              refine ⟨.ok (some x),
                { w.memory with contents := w.memory.contents.setList key rest }, ?_⟩
              rw [Pop.step, if_pos (by rfl), Memory.look_of_cons left list]
    obtain ⟨v, called, now⟩ := called_of_step clock step
    exact ⟨_, v, called, now⟩
  · have at_once (key : String) (timeout : Span) : call ≠ .blpop key timeout :=
      fun same => pop ⟨key, timeout, same⟩
    by_cases spares : w.memory.Spares call
    · obtain ⟨m', answered, -, -⟩ := Memory.immediate_of_spares spares at_once
      exact ⟨_, _, .at_once answered, rfl⟩
    · simp only [Memory.Spares, not_forall] at spares
      obtain ⟨p, place, left⟩ := spares
      obtain ⟨n, left⟩ := Nat.exists_eq_succ_of_ne_zero left
      exact ⟨_, _, .at_once (Memory.immediate_of_armed place left at_once), rfl⟩

end Waiters

/-- A call was answered, on a store that was `m` and is now `m'`, as it has to be. -/
structure Conforms (m : Memory) (call : StoreCall) (r : StoreResult) (m' : Memory) : Prop where
  fails_iff : (∃ e, r = .error e) ↔ ∃ p, point? call = some p ∧ 0 < m.faults p
  failed : ∀ e, r = .error e → ∃ p, point? call = some p ∧ e = .injected p.name ∧
    m' = { m with faults := fun q => if q = p then m.faults p - 1 else m.faults q }
  answered : ∀ a, r = .ok a → m.contents.view.Answers call a ∧
    m'.contents.view = m.contents.view.after call ∧ m'.faults = m.faults
  apart : ∀ key kind, (key, kind) ∉ written call →
    m'.contents.value kind key = m.contents.value kind key
  /-- Two batches run as one leave what they leave when they are run one after the other. -/
  joined : ∀ a b : Batch, call = .exec ⟨a.commands ++ b.commands⟩ → r = .ok .done →
    ∀ n n₁ n₂ : Memory, n.contents = m.contents → n.exec a = (.ok (), n₁) →
      n₁.exec b = (.ok (), n₂) → n₂.contents = m'.contents

theorem Waiters.Called.conforms {w v : Waiters} {call : StoreCall} {r : StoreResult}
    (h : w.Called call r v) : Conforms w.memory call r v.memory := by
  by_cases spares : w.memory.Spares call
  · obtain ⟨result, contents, faults⟩ := h.answer spares
    have never : ¬∃ p, point? call = some p ∧ 0 < w.memory.faults p := by
      rintro ⟨p, place, left⟩
      exact absurd (spares p place) (Nat.ne_of_gt left)
    subst result
    exact {
      fails_iff := ⟨fun fails => absurd fails (by rintro ⟨e, ⟨⟩⟩), fun armed => absurd armed never⟩
      failed := fun e eq => by cases eq
      answered := fun a eq => by
        cases eq
        exact ⟨w.memory.contents.answers_answer call,
          contents ▸ w.memory.contents.view_answer call, faults⟩
      apart := fun key kind other => by
        rw [contents]
        exact w.memory.contents.value_answer_of_unwritten other
      joined := fun a b eq _ n n₁ n₂ same first second => by
        rw [Memory.exec_ok second, Memory.exec_ok first, same, contents, eq]
        exact (Contents.applyAll_append _ _ _).symm }
  · simp only [Memory.Spares, not_forall] at spares
    obtain ⟨p, place, left⟩ := spares
    obtain ⟨n, left⟩ := Nat.exists_eq_succ_of_ne_zero left
    obtain ⟨result, memory⟩ := h.refused place left
    subst result
    exact {
      fails_iff := ⟨fun _ => ⟨p, place, by omega⟩, fun _ => ⟨_, rfl⟩⟩
      failed := fun e eq => by
        cases eq
        refine ⟨p, place, rfl, memory.trans ?_⟩
        rw [Memory.failNext, left, Nat.succ_sub_one]
      answered := fun a eq => by cases eq
      apart := fun key kind _ => by
        rw [memory]
        rfl
      joined := fun a b _ ok => by cases ok }

/-! ### Calls one after the other -/

/-- What is done with a store. -/
inductive Use where
  | answered (call : StoreCall) (result : StoreResult)
  | armed (point : FaultPoint) (count : Nat)

/-- What a use makes of what a store says. -/
def Use.onView : Use → View → View
  | answered call (.ok _), view => view.after call
  | answered _ (.error _), view | armed .., view => view

/-- What a use makes of the number of failures left at a place. -/
def Use.onFaults (p : FaultPoint) : Use → Nat → Nat
  | answered call (.error _), n => if point? call = some p then n - 1 else n
  | answered _ (.ok _), n => n
  | armed q count, n => if p = q then count else n

/-- A use of a store, with what was there before and after it. -/
structure Moment where
  before : Memory
  use : Use
  after : Memory

namespace Waiters

/-- Calls are made and answered one after the other, failures are asked for and time passes; with
the uses of the store, latest first. -/
inductive Uses (w : Waiters) : List Moment → Waiters → Prop where
  | refl : Uses w [] w
  | call {ts : List Moment} {v u : Waiters} {call : StoreCall} {r : StoreResult} :
      Uses w ts v → Called v call r u →
      Uses w (⟨v.memory, .answered call r, u.memory⟩ :: ts) u
  | failNext {ts : List Moment} {v : Waiters} (point : FaultPoint) (count : Nat) : Uses w ts v →
      Uses w (⟨v.memory, .armed point count, v.memory.failNext point count⟩ :: ts)
        { v with memory := v.memory.failNext point count }
  | elapse {ts : List Moment} {v : Waiters} (t : Instant) : Uses w ts v →
      Uses w ts { v with now := max v.now t }

variable {w v : Waiters} {ts : List Moment}

theorem Uses.split {t : Moment} {later past : List Moment} (h : w.Uses (later ++ t :: past) v) :
    ∃ u, w.Uses past u ∧ u.memory = t.before := by
  generalize eq : later ++ t :: past = ts at h
  induction h generalizing later with
  | refl => cases later <;> cases eq
  | call earlier _ ih | failNext _ _ earlier ih =>
      cases later with
      | nil =>
          cases eq
          exact ⟨_, earlier, rfl⟩
      | cons first later => exact ih (List.cons.inj eq).2
  | elapse _ _ ih => exact ih eq

end Waiters

theorem Waiters.Uses.conforms {w v : Waiters} {ts : List Moment} (h : w.Uses ts v) :
    ∀ t ∈ ts, ∀ call r, t.use = .answered call r → Conforms t.before call r t.after := by
  induction h with
  | refl => exact fun t mem => absurd mem List.not_mem_nil
  | call _ called ih =>
      intro t mem call r use
      rcases List.mem_cons.mp mem with rfl | before
      · cases use
        exact called.conforms
      · exact ih t before call r use
  | failNext _ _ _ ih =>
      intro t mem call r use
      rcases List.mem_cons.mp mem with rfl | before
      · cases use
      · exact ih t before call r use
  | elapse _ _ ih => exact ih

/-- What the uses, latest first, make of what a store said. -/
def viewAfter (m : Memory) (ts : List Moment) : View :=
  ts.foldr (fun t => t.use.onView) m.contents.view

/-- How many failures they leave at a place. -/
def faultsAfter (m : Memory) (p : FaultPoint) (ts : List Moment) : Nat :=
  ts.foldr (fun t => t.use.onFaults p) (m.faults p)

theorem Waiters.Uses.after {w v : Waiters} {ts : List Moment} (h : w.Uses ts v) :
    v.memory.contents.view = viewAfter w.memory ts ∧
      ∀ p, v.memory.faults p = faultsAfter w.memory p ts := by
  induction h with
  | refl => exact ⟨rfl, fun _ => rfl⟩
  | @call ts v u call r _ called ih =>
      rw [viewAfter, List.foldr_cons, ← viewAfter, ← ih.1]
      have conforms := called.conforms
      cases r with
      | ok a =>
          obtain ⟨-, view, faults⟩ := conforms.answered a rfl
          exact ⟨view, fun p => (congrFun faults p).trans (ih.2 p)⟩
      | error e =>
          obtain ⟨q, place, -, memory⟩ := conforms.failed e rfl
          refine ⟨by rw [memory]; rfl, fun p => ?_⟩
          rw [faultsAfter, List.foldr_cons, ← faultsAfter, ← ih.2 p, Use.onFaults, place, memory]
          dsimp only
          by_cases same : p = q
          · subst same
            rw [if_pos rfl, if_pos rfl]
          · rw [if_neg same, if_neg fun eq => same (Option.some.inj eq).symm]
  | failNext point count _ ih =>
      refine ⟨ih.1, fun p => ?_⟩
      rw [faultsAfter, List.foldr_cons, ← faultsAfter, ← ih.2 p]
      rfl
  | elapse _ _ ih => exact ih

/-- The uses of a store, and the next one, are answered as they have to be. -/
structure Exact (w : Waiters) (ts : List Moment) (v : Waiters) : Prop where
  calls : ∀ t ∈ ts, ∀ call r, t.use = .answered call r → Conforms t.before call r t.after
  /-- At every moment the store is what the uses before have made of it. -/
  before : ∀ later t past, ts = later ++ t :: past →
    t.before.contents.view = viewAfter w.memory past ∧
      ∀ p, t.before.faults p = faultsAfter w.memory p past
  after : v.memory.contents.view = viewAfter w.memory ts ∧
    ∀ p, v.memory.faults p = faultsAfter w.memory p ts
  /-- Every call that needs no time is answered next. -/
  ready : ∀ call, v.Ready call → ∃ r u, v.Called call r u ∧ u.now = v.now

namespace Waiters

theorem exact_of_uses {w v : Waiters} {ts : List Moment} (h : w.Uses ts v) : Exact w ts v where
  calls := h.conforms
  before later t past eq := by
    obtain ⟨u, earlier, memory⟩ := (eq ▸ h).split
    exact memory ▸ earlier.after
  after := h.after
  ready _ := called_of_ready

def mixed : Batch := ((Batch.empty.rpush "q" ["a", "b"]).hdel "h" "x").zrem "z" "x"

/-- A batch is refused once and then runs; a pop takes a value, and the next one fails. -/
theorem exact_refusedTwice : ∃ ts v, Uses {} ts v ∧ Exact {} ts v ∧
    ts.map Moment.use = [.answered (.blpop "q" .zero) (.error (.injected "blpop")),
      .armed .blpop 1, .answered (.blpop "q" .zero) (.ok (.value (some "a"))),
      .answered (.exec mixed) (.ok .done),
      .answered (.exec mixed) (.error (.injected "exec")), .armed .exec 1] ∧
    v.memory.contents.list "q" = ["b"] ∧ v.memory.Sound := by
  have refused := (Uses.refl (w := {})).failNext .exec 1 |>.call
    (show Called _ (.exec mixed) _ _ from .at_once rfl)
  have ran := refused.call (show Called _ (.exec mixed) _ _ from .at_once rfl)
  have taken := ran.call
    (show Called _ (.blpop "q" .zero) _ _ from .waited (.step .refl rfl) rfl)
  have failed := taken.failNext .blpop 1 |>.call
    (show Called _ (.blpop "q" .zero) _ _ from .waited (.step .refl rfl) rfl)
  exact ⟨_, _, failed, exact_of_uses failed, rfl, rfl, by decide⟩

end Waiters

end Store

end ReliableQueue
