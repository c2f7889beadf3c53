import ReliableQueue.Proofs.Queue.Changes

/-!
How a claim goes from the lookup of its payload to an executor and on to its settlement. It is
passed on as it was looked up: no more claims of any kind are given to executors than were
looked up, and no more are settled than were given to executors.
-/

namespace ReliableQueue.Queue

variable {k : Keys} {a : Act} {c d : Cluster} {Q : Claim → Bool}

/-! ### Claims that events name -/

namespace Event

@[simp] def loadedClaims : Event → List Claim
  | loaded claim => [claim]
  | _ => []

@[simp] def calledClaims : Event → List Claim
  | called claim => [claim]
  | _ => []

@[simp] def settledClaims : Event → List Claim
  | settled claim => [claim]
  | _ => []

end Event

/-- How many of the claims that `f` reads from the events are such that `Q`. -/
def amount (Q : Claim → Bool) (f : Event → List Claim) (es : List Event) : Nat :=
  (es.flatMap f).countP Q

section

variable {f : Event → List Claim} {es : List Event}

@[simp] theorem amount_nil : amount Q f [] = 0 := rfl

@[simp] theorem amount_cons (e : Event) :
    amount Q f (e :: es) = (f e).countP Q + amount Q f es := by
  simp [amount]

@[simp] theorem amount_append (es' : List Event) :
    amount Q f (es ++ es') = amount Q f es + amount Q f es' := by
  simp [amount]

@[simp] theorem amount_reverse : amount Q f es.reverse = amount Q f es :=
  (es.reverse_perm.flatMap_right f).countP_eq Q

theorem amount_eq_zero : amount Q f es = 0 ↔ ∀ e ∈ es, ∀ claim ∈ f e, Q claim = false := by
  simp only [amount, List.countP_eq_zero, List.mem_flatMap, Bool.not_eq_true]
  constructor
  · intro h e he claim hc
    exact h claim ⟨e, he, hc⟩
  · rintro h claim ⟨e, he, hc⟩
    exact h e he claim hc

theorem amount_of_none (h : ∀ e ∈ es, f e = []) : amount Q f es = 0 :=
  amount_eq_zero.mpr fun e he claim hc => by rw [h e he] at hc; cases hc

end

/-! ### Places -/

/-- The claims of a run that were looked up and not given to an executor. -/
def Run.uncalled (r : Run) : List Claim :=
  r.fetcher.loaded?.toList ++ r.channel.buffer ++ r.workers.flatMap (·.ready?.toList)

def Cluster.uncalled (c : Cluster) : List Claim := c.runs.flatMap Run.uncalled ++ c.left

/-- How many claims of a kind are on the way to an executor, and how many are at one. -/
structure Load where
  uncalled : Nat
  calling : Nat

def Run.load (Q : Claim → Bool) (r : Run) : Load := ⟨r.uncalled.countP Q, r.calling.countP Q⟩

def Cluster.load (Q : Claim → Bool) (c : Cluster) : Load :=
  ⟨c.uncalled.countP Q, c.calling.countP Q⟩

/-- Claims of a kind are only passed on: what is called was looked up, what is settled was
called. -/
structure Carry (Q : Claim → Bool) (es : List Event) (before after : Load) : Prop where
  calls : amount Q Event.calledClaims es + after.uncalled ≤
    before.uncalled + amount Q Event.loadedClaims es
  ends : amount Q Event.settledClaims es + after.calling ≤
    before.calling + amount Q Event.calledClaims es

/-- Events that name no claim. -/
def Plain (es : List Event) : Prop :=
  ∀ e ∈ es, e.loadedClaims = [] ∧ e.calledClaims = [] ∧ e.settledClaims = []

theorem plain_of_quiet {es : List Event} (h : Quiet es) : Plain es := by
  intro e he
  have quiet := h e he
  cases e <;> first | exact ⟨rfl, rfl, rfl⟩ | cases quiet

theorem plain_of_discards {es : List Event} (h : ∀ e ∈ es, ∃ id, e = .discarded id) :
    Plain es := by
  intro e he
  obtain ⟨id, rfl⟩ := h e he
  exact ⟨rfl, rfl, rfl⟩

namespace Carry

variable {es es' : List Event} {s t u : Load}

theorem of_plain (h : Plain es) (uncalled : t.uncalled ≤ s.uncalled)
    (calling : t.calling ≤ s.calling) : Carry Q es s t := by
  have loads : amount Q Event.loadedClaims es = 0 := amount_of_none fun e he => (h e he).1
  have calls : amount Q Event.calledClaims es = 0 := amount_of_none fun e he => (h e he).2.1
  have ends : amount Q Event.settledClaims es = 0 := amount_of_none fun e he => (h e he).2.2
  constructor <;> omega

theorem refl (s : Load) : Carry Q [] s s :=
  of_plain (by simp [Plain]) (Nat.le_refl _) (Nat.le_refl _)

theorem append (later : Carry Q es' t u) (h : Carry Q es s t) : Carry Q (es' ++ es) s u := by
  obtain ⟨calls, ends⟩ := h
  obtain ⟨calls', ends'⟩ := later
  constructor <;> simp only [amount_append] <;> omega

theorem reverse (h : Carry Q es s t) : Carry Q es.reverse s t := by
  obtain ⟨calls, ends⟩ := h
  constructor <;> simpa only [amount_reverse]

end Carry

/-! ### Steps -/

namespace Run

theorem ready_of_working {r : Run} (h : r.working = []) :
    r.workers.flatMap (·.ready?.toList) = [] := by
  simp only [working, List.flatMap_eq_nil_iff, Option.toList_eq_nil_iff] at h ⊢
  intro w hw
  rw [Worker.ready?_eq, h w hw, ite_self]

theorem carry_reap (r : Run) (Q : Claim → Bool) :
    Carry Q r.reap.2 (r.load Q) (r.reap.1.load Q) := by
  refine .of_plain (plain_of_discards fun e he => mem_reap he) ?_ ?_
  · rcases r.reap_cases with ⟨hb, -⟩ | ⟨hb, -⟩
    all_goals simp [load, uncalled, hb]
  · simp [load, calling]

theorem carry_fetched {r : Run} {sh : Shared} {m : Moved Fetcher}
    (channel : sh.channel = r.channel) (move : Fetcher.Move k sh r.fetcher m)
    (Q : Claim → Bool) :
    Carry Q m.events (r.load Q)
      (Run.load Q { r with fetcher := m.loop, channel := m.shared.channel }) := by
  -- A fetcher that has passed its task on, in whatever way, has looked nothing up.
  have gone (free : m.loop.held? = none) (same : m.shared.channel = sh.channel)
      (plain : Plain m.events) : Carry Q m.events (r.load Q)
        (Run.load Q { r with fetcher := m.loop, channel := m.shared.channel }) := by
    obtain ⟨-, -, loaded, -⟩ := Fetcher.hand_of_free free
    refine .of_plain plain ?_ (Nat.le_refl _)
    simp [load, uncalled, loaded, same, channel]
  cases move with
  | quiet held contents same events unclaimed claimed loaded =>
      refine .of_plain (plain_of_quiet events) ?_ (Nat.le_refl _)
      rcases loaded with loaded | loaded
      all_goals simp [load, uncalled, loaded, same, channel]
  | popped id rest free held head contents same events loop =>
      refine .of_plain (by simp [Plain, events]) ?_ (Nat.le_refl _)
      simp [load, uncalled, loop, same, channel, Fetcher.loaded?]
  | loaded claim was loop payload contents same events =>
      constructor <;>
        simp only [load, uncalled, calling, was, loop, same, channel, events] <;>
        simp [Fetcher.loaded?, List.countP_cons, Nat.add_comm]
  | claimed claim stamp had held contents same events was loop =>
      refine .of_plain (by simp [Plain, events]) ?_ (Nat.le_refl _)
      simp only [load, uncalled, was, loop, same, channel]
      exact Nat.le_refl _
  | requeued id notes had free contents same events quiet was
  | requeueFailed id cause notes had free fault contents same events quiet was =>
      refine gone free same ?_
      rw [events]
      exact List.forall_mem_cons.mpr ⟨⟨rfl, rfl, rfl⟩, plain_of_quiet quiet⟩
  | released id had free contents same events was
  | releaseFailed id cause had free fault contents same events was =>
      exact gone free same (by simp [Plain, events])
  | sent claim had free contents same events was =>
      obtain ⟨-, -, loaded, -⟩ := Fetcher.hand_of_free free
      refine .of_plain (by simp [Plain, events]) ?_ (Nat.le_refl _)
      simp only [load, uncalled, loaded, was, same, channel]
      simp [Fetcher.loaded?, Channel.send, List.countP_cons]
      omega

theorem carry_worked {r : Run} {sh : Shared} {w : Worker} {m : Moved Worker} {j : Nat}
    (channel : sh.channel = r.channel) (hw : r.workers[j]? = some w)
    (move : Worker.Move k sh w m) (Q : Claim → Bool) :
    Carry Q m.events (r.load Q)
      (Run.load Q { r with workers := r.workers.set j m.loop, channel := m.shared.channel }) := by
  have ready := countP_flatMap_set hw m.loop (·.ready?.toList) Q
  have calling := countP_flatMap_set hw m.loop (·.calling?.toList) Q
  have counts : (Option.toList (none : Option Claim)).countP Q = 0 := rfl
  cases move with
  | quiet held same_call contents same events =>
      have same_ready : m.loop.ready? = w.ready? := by
        rw [Worker.ready?_eq, Worker.ready?_eq, held, same_call]
      rw [same_ready] at ready
      rw [same_call] at calling
      refine .of_plain (plain_of_quiet events) ?_ ?_ <;>
        simp only [load, uncalled, Run.calling, same, channel, List.countP_append] <;> omega
  | received claim rest free loop head contents same events =>
      have before : w.ready? = none ∧ w.calling? = none := by
        cases w <;> first | exact ⟨rfl, rfl⟩ | cases free
      have after : m.loop.ready? = some claim ∧ m.loop.calling? = none := by
        rw [loop]
        exact ⟨rfl, rfl⟩
      rw [before.1, after.1, counts] at ready
      rw [before.2, after.2] at calling
      rw [channel] at head same
      refine .of_plain (by simp [Plain, events]) ?_ ?_ <;>
        simp only [load, uncalled, Run.calling, head, same, List.countP_append, List.countP_cons,
          Option.toList_some, List.countP_nil] at ready ⊢ <;> omega
  | called claim had held called contents same events =>
      have before : w.ready? = some claim ∧ w.calling? = none := by
        rw [had]
        exact ⟨rfl, rfl⟩
      have after : m.loop.ready? = none := by
        rw [Worker.ready?_eq, called]
        rfl
      rw [before.1, after, counts] at ready
      rw [before.2, called, counts] at calling
      constructor <;>
        simp only [load, uncalled, Run.calling, same, channel, events, List.countP_append,
          amount_cons, amount_nil, Event.loadedClaims, Event.calledClaims, Event.settledClaims,
          Option.toList_some, List.countP_nil] at ready calling ⊢ <;> omega
  | settled claim had loop contents same events
  | settleFailed claim cause had loop fault contents same events =>
      have before : w.ready? = none ∧ w.calling? = some claim := by
        rw [had]
        exact ⟨rfl, rfl⟩
      have after : m.loop.ready? = none ∧ m.loop.calling? = none := by
        rw [loop]
        exact ⟨rfl, rfl⟩
      rw [before.1, after.1] at ready
      rw [before.2, after.2, counts] at calling
      constructor <;>
        simp only [load, uncalled, Run.calling, same, channel, events, List.countP_append,
          amount_cons, amount_nil, Event.loadedClaims, Event.calledClaims, Event.settledClaims,
          Option.toList_some, List.countP_nil] at calling ⊢ <;> omega
  | panicked claim had loop contents same events =>
      have after : m.loop.ready? = none ∧ m.loop.calling? = none := by
        rw [loop]
        exact ⟨rfl, rfl⟩
      rw [after.1, counts] at ready
      rw [after.2, counts] at calling
      refine .of_plain (by simp [Plain, events]) ?_ ?_ <;>
        simp only [load, uncalled, Run.calling, same, channel, List.countP_append] <;> omega

end Run

theorem Fetcher.Move.loading {sh : Shared} {f : Fetcher} {m : Moved Fetcher} {claim : Claim}
    (h : Fetcher.Move k sh f m) (loaded : .loaded claim ∈ m.events) : f = .loading claim.id := by
  cases h with
  | loaded claim' was loop payload contents channel events =>
      rw [events, List.mem_singleton] at loaded
      cases loaded
      exact was
  | quiet held contents channel events => cases events _ loaded
  | requeued id notes had free contents channel events quiet
  | requeueFailed id cause notes had free fault contents channel events quiet =>
      rw [events] at loaded
      cases loaded with
      | tail _ hm => cases quiet _ hm
  | _ => simp_all

theorem Worker.Move.not_loaded {sh : Shared} {w : Worker} {m : Moved Worker}
    (h : Worker.Move k sh w m) (claim : Claim) : .loaded claim ∉ m.events := by
  intro loaded
  cases h with
  | quiet held calling contents channel events => cases events _ loaded
  | _ => simp_all

namespace Cluster

theorem carry_set {i : Nat} {r r' : Run} {es : List Event} (hr : c.runs[i]? = some r)
    (runs : d.runs = c.runs.set i r') (left : d.left = c.left)
    (h : Carry Q es (r.load Q) (r'.load Q)) : Carry Q es (c.load Q) (d.load Q) := by
  have uncalled := countP_flatMap_set hr r' Run.uncalled Q
  have calling := countP_flatMap_set hr r' Run.calling Q
  obtain ⟨calls, ends⟩ := h
  simp only [Run.load] at calls ends
  constructor <;>
    simp only [load, Cluster.uncalled, Cluster.calling, runs, left, List.countP_append] <;> omega

theorem load_same (runs : d.runs = c.runs) (left : d.left = c.left) (Q : Claim → Bool) :
    d.load Q = c.load Q := by
  simp only [load, Cluster.uncalled, Cluster.calling, runs, left]

theorem carry_letGo (c : Cluster) (i : Nat) (Q : Claim → Bool) :
    ∃ es, (c.letGo i).events = es ++ c.events ∧ Carry Q es (c.load Q) ((c.letGo i).load Q) := by
  have left : (c.letGo i).left = c.left := by rw [Cluster.left, calls_letGo, Cluster.left]
  rcases c.letGo_cases i with ⟨runs, events⟩ | ⟨r, hr, runs, events⟩
  · exact ⟨[], events, load_same runs left Q ▸ .refl _⟩
  · exact ⟨_, events, carry_set hr runs left (Run.carry_reap { r with kept := false } Q).reverse⟩

theorem countP_left_set {n : Nat} {call : Call} {s : Stage} (hc : c.calls[n]? = some call)
    (calls : d.calls = c.calls.set n ⟨call.handle, s⟩) (Q : Claim → Bool) :
    d.left.countP Q + call.stage.left.countP Q = c.left.countP Q + s.left.countP Q := by
  simp only [left, calls]
  exact countP_flatMap_set hc ⟨call.handle, s⟩ (fun call => call.stage.left) Q

/-- A stop that goes on with no more than it had taken. -/
theorem carry_left {n : Nat} {call : Call} {s : Stage} {es : List Event}
    (hc : c.calls[n]? = some call) (calls : d.calls = c.calls.set n ⟨call.handle, s⟩)
    (runs : d.runs = c.runs) (plain : Plain es)
    (less : s.left.countP Q ≤ call.stage.left.countP Q) : Carry Q es (c.load Q) (d.load Q) := by
  have taken := countP_left_set hc calls Q
  refine .of_plain plain ?_ ?_ <;>
    simp only [load, Cluster.uncalled, Cluster.calling, runs, List.countP_append]
  · omega
  · exact Nat.le_refl _

/-- No act gives an executor what was not looked up, or settles what no executor got. -/
theorem carry_change (change : Change k a c d) (Q : Claim → Bool) :
    ∃ es, d.events = es ++ c.events ∧ Carry Q es (c.load Q) (d.load Q) := by
  cases change with
  | quiet contents runs left events =>
      obtain ⟨es, quiet, events⟩ := events
      rw [load_same runs left Q]
      exact ⟨es, events, .of_plain (plain_of_quiet quiet) (Nat.le_refl _) (Nat.le_refl _)⟩
  | pushed tasks some contents runs left events =>
      rw [load_same runs left Q]
      exact ⟨[_], events, .of_plain (by simp [Plain]) (Nat.le_refl _) (Nat.le_refl _)⟩
  | fetched i r m run live move contents runs left events =>
      exact ⟨_, events, carry_set run runs left
        ((Run.carry_reap _ Q).reverse.append (Run.carry_fetched rfl move Q).reverse)⟩
  | worked i j r w m run worker move panic contents runs left events =>
      exact ⟨_, events, carry_set run runs left
        ((Run.carry_reap _ Q).reverse.append (Run.carry_worked rfl worker move Q).reverse)⟩
  | launched r hand buffer working calling contents runs left events =>
      obtain ⟨es, quiet, events⟩ := events
      refine ⟨es, events, .of_plain (plain_of_quiet quiet) ?_ ?_⟩
      · have loaded : r.fetcher.loaded? = none :=
          (Fetcher.hand_of_free (by simpa [Run.inHand] using hand)).2.2.1
        have ready : r.workers.flatMap (·.ready?.toList) = [] := Run.ready_of_working working
        simp [load, Cluster.uncalled, runs, left, Run.uncalled, loaded, buffer, ready]
      · simp [load, Cluster.calling, runs, calling]
  | drained n i r call run stage draining contents runs calls events =>
      -- What was in the channel is with the stop now.
      have taken := countP_left_set stage calls Q
      have uncalled := countP_flatMap_set run { r with channel := r.channel.discard }
        Run.uncalled Q
      have calling := countP_flatMap_set run { r with channel := r.channel.discard }
        Run.calling Q
      have none : call.stage.left.countP Q = 0 := by rw [draining]; rfl
      have took : (Stage.releasing i r.channel.buffer.reverse).left.countP Q =
          r.channel.buffer.countP Q := List.countP_reverse
      have emptied : r.uncalled.countP Q =
          (Run.uncalled { r with channel := r.channel.discard }).countP Q +
            r.channel.buffer.countP Q := by
        simp only [Run.uncalled, Channel.discard, List.countP_append, List.countP_nil]
        omega
      have same : (Run.calling { r with channel := r.channel.discard }).countP Q =
          r.calling.countP Q := rfl
      rw [← runs] at uncalled calling
      refine ⟨[], events, .of_plain (by simp [Plain]) ?_ ?_⟩ <;>
        simp only [load, Cluster.uncalled, Cluster.calling, List.countP_append]
      · omega
      · omega
  | released n i claim rest call stage releasing contents runs calls events =>
      refine ⟨[_], events, carry_left stage calls runs (by simp [Plain]) ?_⟩
      simp [releasing, Stage.left, List.countP_cons]
  | releaseFailed n i claim rest cause call stage releasing fault contents runs calls events =>
      refine ⟨[_], events, carry_left stage calls runs (by simp [Plain]) ?_⟩
      simp [releasing, Stage.left, List.countP_cons]
  | letGo i cause contents runs left events =>
      obtain ⟨es, quiet, events⟩ := events
      obtain ⟨es', grown, carry⟩ := c.carry_letGo i Q
      refine ⟨es ++ es', by rw [events, grown, List.append_assoc], .append ?_ carry⟩
      rw [load_same runs (by rw [left, Cluster.left, Cluster.left, calls_letGo]) Q]
      exact .of_plain (plain_of_quiet quiet) (Nat.le_refl _) (Nat.le_refl _)
  | forfeited n i call act stage stopping contents runs calls events =>
      obtain ⟨es', grown, carry⟩ := c.carry_letGo i Q
      refine ⟨_ ++ es', by rw [events, grown, List.append_assoc], .append ?_ carry⟩
      rw [← calls_letGo c i] at stage calls
      exact carry_left stage calls runs (by simp [Plain]) (by simp [Stage.left])
  | recovered id cause contents runs left events =>
      rw [load_same runs left Q]
      exact ⟨[_], events, .of_plain (by simp [Plain]) (Nat.le_refl _) (Nat.le_refl _)⟩

theorem not_mem_of_plain {es : List Event} (h : Plain es) (claim : Claim) :
    .loaded claim ∉ es := by
  intro hm
  cases (h _ hm).1

/-- A payload is looked up for a task that a fetcher has popped. -/
theorem loads_of_change (change : Change k a c d) :
    ∃ es, d.events = es ++ c.events ∧
      ∀ claim, .loaded claim ∈ es → ∃ r ∈ c.runs, r.fetcher = .loading claim.id := by
  have never {es : List Event} (plain : Plain es) (claim : Claim) (hm : .loaded claim ∈ es) :
      ∃ r ∈ c.runs, r.fetcher = .loading claim.id :=
    absurd hm (not_mem_of_plain plain claim)
  cases change with
  | fetched i r m run live move contents runs left events =>
      refine ⟨_, events, fun claim hm => ?_⟩
      rcases List.mem_append.mp hm with hm | hm
      · exact never (plain_of_discards fun e he => Run.mem_reap he) claim (List.mem_reverse.mp hm)
      · exact ⟨r, List.mem_of_getElem? run, move.loading (List.mem_reverse.mp hm)⟩
  | worked i j r w m run worker move panic contents runs left events =>
      refine ⟨_, events, fun claim hm => ?_⟩
      rcases List.mem_append.mp hm with hm | hm
      · exact never (plain_of_discards fun e he => Run.mem_reap he) claim (List.mem_reverse.mp hm)
      · exact absurd (List.mem_reverse.mp hm) (move.not_loaded claim)
  | quiet _ _ _ events | launched _ _ _ _ _ _ _ _ events =>
      obtain ⟨es, quiet, events⟩ := events
      exact ⟨es, events, never (plain_of_quiet quiet)⟩
  | drained _ _ _ _ _ _ _ _ _ _ events => exact ⟨[], events, never (by simp [Plain])⟩
  | pushed _ _ _ _ _ events | recovered _ _ _ _ _ events
  | released _ _ _ _ _ _ _ _ _ _ events | releaseFailed _ _ _ _ _ _ _ _ _ _ _ _ events =>
      exact ⟨[_], events, never (by simp [Plain])⟩
  | letGo i cause contents runs left events =>
      obtain ⟨es, quiet, events⟩ := events
      obtain ⟨es', grown, discards⟩ := c.events_letGo_eq i
      exact ⟨es ++ es', by rw [events, grown, List.append_assoc],
        never (List.forall_mem_append.mpr ⟨plain_of_quiet quiet, plain_of_discards discards⟩)⟩
  | forfeited n i call act stage stopping contents runs calls events =>
      obtain ⟨es', grown, discards⟩ := c.events_letGo_eq i
      refine ⟨_ ++ es', by rw [events, grown, List.append_assoc], never ?_⟩
      exact List.forall_mem_append.mpr ⟨by simp, plain_of_discards discards⟩

end Cluster

end ReliableQueue.Queue
