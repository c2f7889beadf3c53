import ReliableQueue.Proofs.Queue.Changes
import ReliableQueue.Proofs.Queue.Tallies

/-!
How the calls of the executor that have begun are accounted for: each is under way, has
been followed by a settlement, or has ended in a panic.
-/

namespace ReliableQueue.Queue

variable {k : Keys} {x : String} {a : Act} {c d : Cluster}

/-- Whether an event is the beginning or the end of the work on a task. -/
def Event.isOfCall : Event → Bool
  | called _ | settled _ | settleFailed .. | workerPanicked _ => true
  | _ => false

theorem Event.isOfCall_of_quiet {e : Event} (h : e.movesTask = false) : e.isOfCall = false := by
  cases e <;> first | rfl | cases h

theorem Fetcher.Move.events_isOfCall {sh : Shared} {f : Fetcher} {m : Moved Fetcher}
    (h : Fetcher.Move k sh f m) : ∀ e ∈ m.events, e.isOfCall = false := by
  cases h with
  | quiet held contents channel events => exact fun e he => Event.isOfCall_of_quiet (events e he)
  | requeued id notes had free contents channel events quiet
  | requeueFailed id cause notes had free fault contents channel events quiet =>
      rw [events]
      rintro e (_ | ⟨_, he⟩)
      · rfl
      · exact Event.isOfCall_of_quiet (quiet e he)
  | _ => simp_all [Event.isOfCall]

/-- A step of a worker begins a call, ends one, or leaves it as it is. -/
theorem Worker.Move.calls {sh : Shared} {w : Worker} {m : Moved Worker}
    (h : Worker.Move k sh w m) (x : String) :
    ∃ n, tally Event.calledIds m.events x + (w.calling?.toList.map Claim.id).count x =
        (m.loop.calling?.toList.map Claim.id).count x + tally Event.endedIds m.events x + n ∧
      n ≤ tally Event.panickedIds m.events x ∧
      (n ≠ 0 → m.loop = .panicked ∧ w.calling?.isSome) := by
  cases h with
  | quiet held calling contents channel events =>
      refine ⟨0, ?_, Nat.zero_le _, by simp⟩
      rw [calling, tally_quiet (f := Event.calledIds) (by simp) events,
        tally_quiet (f := Event.endedIds) (by simp) events]
      omega
  | received claim rest free loop head contents channel events =>
      refine ⟨0, ?_, Nat.zero_le _, by simp⟩
      have hw : w.calling? = none := by cases w <;> first | rfl | cases free
      rw [hw, loop, events]
      simp [Worker.calling?]
  | called claim had held calling contents channel events =>
      refine ⟨0, ?_, Nat.zero_le _, by simp⟩
      rw [had, calling, events]
      simp [Worker.calling?]
  | settled claim had loop contents channel events =>
      refine ⟨0, ?_, Nat.zero_le _, by simp⟩
      rw [had, loop, events]
      simp [Worker.calling?]
  | settleFailed claim cause had loop fault contents channel events =>
      refine ⟨0, ?_, Nat.zero_le _, by simp⟩
      rw [had, loop, events]
      simp [Worker.calling?]
  | panicked claim had loop contents channel events =>
      rw [loop, events]
      cases hc : w.calling? with
      | none => exact ⟨0, by simp [Worker.calling?], Nat.zero_le _, by simp⟩
      | some claim' =>
          have he : claim' = claim := by cases w <;> simp_all [Worker.calling?, Worker.held?]
          subst he
          refine ⟨[claim'.id].count x, by simp [Worker.calling?], by simp, by simp⟩

namespace Cluster

theorem tally_isOfCall {f : Event → List String} {es : List Event}
    (hf : ∀ e : Event, e.isOfCall = false → f e = []) (h : ∀ e ∈ es, e.isOfCall = false) :
    tally f es x = 0 :=
  tally_eq_zero.mpr fun e he => by simp [hf e (h e he)]

/-- The balance of calls from `c` to `d`, but for `n` that end in a panic. -/
def CallsBalanced (x : String) (n : Nat) (c d : Cluster) : Prop :=
  tally Event.calledIds d.events x + (c.calling.map Claim.id).count x +
      tally Event.endedIds c.events x =
    tally Event.calledIds c.events x + (d.calling.map Claim.id).count x +
      tally Event.endedIds d.events x + n ∧
  tally Event.panickedIds c.events x + n ≤ tally Event.panickedIds d.events x

theorem callsBalanced_of_eq {es : List Event} (calling : d.calling = c.calling)
    (events : d.events = es ++ c.events) (h : ∀ e ∈ es, e.isOfCall = false) :
    CallsBalanced x 0 c d := by
  have h1 := tally_isOfCall (f := Event.calledIds) (x := x)
    (fun e he => by cases e <;> first | rfl | cases he) h
  have h2 := tally_isOfCall (f := Event.endedIds) (x := x)
    (fun e he => by cases e <;> first | rfl | cases he) h
  simp only [CallsBalanced, calling, events, tally_append]
  omega

theorem calling_set {i : Nat} {r r' : Run} (hr : c.runs[i]? = some r)
    (runs : d.runs = c.runs.set i r') (workers : r'.workers = r.workers) :
    d.calling = c.calling := by
  simp only [calling, runs]
  exact flatMap_set_of_eq hr (by simp only [Run.calling, workers])

theorem isOfCall_reap (r : Run) : ∀ e ∈ r.reap.2, e.isOfCall = false := by
  intro e he
  obtain ⟨id, rfl⟩ := Run.mem_reap he
  rfl

/-- Nothing is called and no call ends from `c` to `d`. -/
def CallsSame (c d : Cluster) : Prop :=
  d.calling = c.calling ∧ ∃ es, d.events = es ++ c.events ∧ ∀ e ∈ es, e.isOfCall = false

theorem callsSame_letGo {i : Nat} {es : List Event} (runs : d.runs = (c.letGo i).runs)
    (events : d.events = es ++ (c.letGo i).events) (h : ∀ e ∈ es, e.isOfCall = false) :
    CallsSame c d := by
  rcases c.letGo_cases i with ⟨hr, he⟩ | ⟨r, hi, hr, he⟩
  · rw [he] at events
    exact ⟨by simp only [calling, runs, hr], es, events, h⟩
  · rw [he, ← List.append_assoc] at events
    refine ⟨calling_set hi (runs.trans hr) (by simp), _, events, ?_⟩
    intro e hm
    rcases List.mem_append.mp hm with hm | hm
    · exact h e hm
    · exact isOfCall_reap _ e (List.mem_reverse.mp hm)

/-- Only a step of a worker, or the end that an executor brings about, has to do with calls. -/
theorem callsSame_or_worked (change : Change k a c d) :
    CallsSame c d ∨ ∃ i j r w m, c.runs[i]? = some r ∧ r.workers[j]? = some w ∧
      Worker.Move k (c.shared r) w m ∧
      (m.loop = .panicked → w.calling?.isSome → ∃ i j, a = .executorReturns i j .panicked) ∧
      d.runs = c.runs.set i
        ({ r with workers := r.workers.set j m.loop, channel := m.shared.channel }.reap).1 ∧
      d.events =
        ({ r with workers := r.workers.set j m.loop, channel := m.shared.channel }.reap).2.reverse
          ++ m.events.reverse ++ c.events := by
  have still (es : List Event) (runs : d.runs = c.runs) (events : d.events = es ++ c.events)
      (h : ∀ e ∈ es, e.isOfCall = false) : CallsSame c d :=
    ⟨by simp only [calling, runs], es, events, h⟩
  cases change with
  | worked i j r w m run worker move panic contents runs left events =>
      exact .inr ⟨i, j, r, w, m, run, worker, move, panic, runs, events⟩
  | quiet contents runs left events =>
      obtain ⟨es, hq, he⟩ := events
      exact .inl (still _ runs he fun e h => Event.isOfCall_of_quiet (hq e h))
  | pushed tasks some contents runs left events =>
      exact .inl (still [_] runs events (by simp [Event.isOfCall]))
  | fetched i r m run live move contents runs left events =>
      refine .inl ⟨calling_set run runs (by simp), _, events, ?_⟩
      intro e he
      rcases List.mem_append.mp he with he | he
      · exact isOfCall_reap _ e (List.mem_reverse.mp he)
      · exact move.events_isOfCall e (List.mem_reverse.mp he)
  | launched r hand buffer working calling contents runs left events =>
      obtain ⟨es, hq, he⟩ := events
      refine .inl ⟨?_, es, he, fun e h => Event.isOfCall_of_quiet (hq e h)⟩
      simp only [Cluster.calling, runs, List.flatMap_append, List.flatMap_cons, List.flatMap_nil,
        calling, List.append_nil]
  | drained n i r call run stage draining contents runs calls events =>
      exact .inl ⟨calling_set run runs rfl, [], events, by simp⟩
  | released n i claim rest call stage releasing contents runs calls events =>
      exact .inl (still [_] runs events (by simp [Event.isOfCall]))
  | releaseFailed n i claim rest cause call stage releasing fault contents runs calls events =>
      exact .inl (still [_] runs events (by simp [Event.isOfCall]))
  | letGo i cause contents runs left events =>
      obtain ⟨es, hq, he⟩ := events
      exact .inl (callsSame_letGo runs he fun e h => Event.isOfCall_of_quiet (hq e h))
  | forfeited n i call act stage stopping contents runs calls events =>
      exact .inl (callsSame_letGo runs events (by simp [Event.isOfCall]))
  | recovered id cause contents runs left events =>
      exact .inl (still [_] runs events (by simp [Event.isOfCall]))

theorem callsBalanced_worked {i j : Nat} {r : Run} {w : Worker} {m : Moved Worker}
    (hr : c.runs[i]? = some r) (hw : r.workers[j]? = some w) (move : Worker.Move k (c.shared r) w m)
    (runs : d.runs = c.runs.set i
      ({ r with workers := r.workers.set j m.loop, channel := m.shared.channel }.reap).1)
    (events : d.events =
      ({ r with workers := r.workers.set j m.loop, channel := m.shared.channel }.reap).2.reverse
        ++ m.events.reverse ++ c.events) :
    ∃ n, CallsBalanced x n c d ∧ (n ≠ 0 → m.loop = .panicked ∧ w.calling?.isSome) := by
  obtain ⟨n, hn, hp, hpanic⟩ := move.calls x
  refine ⟨n, ?_, hpanic⟩
  have hs := count_flatMap_set hw m.loop (fun w => w.calling?.toList.map Claim.id) x
  have hd := count_flatMap_set hr
    ({ r with workers := r.workers.set j m.loop, channel := m.shared.channel }.reap).1
    (fun r => r.calling.map Claim.id) x
  simp only [Run.calling, Run.reap_workers, List.map_flatMap] at hd
  simp only [CallsBalanced, events, tally_append, tally_reverse,
    tally_reap_of_nil (f := Event.calledIds) (fun _ => rfl),
    tally_reap_of_nil (f := Event.endedIds) (fun _ => rfl),
    tally_reap_of_nil (f := Event.panickedIds) (fun _ => rfl), calling, runs, Run.calling,
    List.map_flatMap]
  omega

/-- An act begins calls and ends them in balance, but for a panic of the executor. -/
theorem callsBalanced_change (change : Change k a c d) (x : String) :
    ∃ n, CallsBalanced x n c d ∧ (n ≠ 0 → ∃ i j, a = .executorReturns i j .panicked) := by
  rcases callsSame_or_worked change with ⟨calling, es, events, h⟩ |
    ⟨i, j, r, w, m, run, worker, move, panic, runs, events⟩
  · exact ⟨0, callsBalanced_of_eq calling events h, by simp⟩
  · obtain ⟨n, hn, hp⟩ := callsBalanced_worked run worker move runs events
    exact ⟨n, hn, fun h => panic (hp h).1 (hp h).2⟩

theorem called_cases (change : Change k a c d) :
    (∀ x, tally Event.calledIds d.events x = tally Event.calledIds c.events x) ∨
      ∃ claim es, d.events = es ++ .called claim :: c.events ∧ ∀ e ∈ es, e.isOfCall = false := by
  have uncalled {es : List Event} (h : ∀ e ∈ es, e.calledIds = []) (x : String) :
      tally Event.calledIds es x = 0 :=
    tally_eq_zero.mpr fun e he => (h e he).symm ▸ List.not_mem_nil
  rcases callsSame_or_worked change with ⟨-, es, events, h⟩ |
    ⟨i, j, r, w, m, run, worker, move, -, runs, events⟩
  · refine .inl fun x => ?_
    rw [events, tally_append, uncalled, Nat.zero_add]
    intro e he
    have := h e he
    cases e <;> first | rfl | cases this
  · have lost := isOfCall_reap
      { r with workers := r.workers.set j m.loop, channel := m.shared.channel }
    cases move with
    | called claim had held calling contents channel calls =>
        refine .inr ⟨claim, _, ?_, fun e he => lost e (List.mem_reverse.mp he)⟩
        rw [events, calls]
        simp
    | quiet held calling contents channel quiet =>
        refine .inl fun x => ?_
        rw [events, tally_append, tally_append, tally_reverse, tally_reverse,
          tally_reap_of_nil (fun _ => rfl), uncalled]
        · omega
        intro e he
        have := quiet e he
        cases e <;> first | rfl | cases this
    | received _ _ _ _ _ _ _ calls | settled _ _ _ _ _ calls | settleFailed _ _ _ _ _ _ _ calls
    | panicked _ _ _ _ _ calls =>
        refine .inl fun x => ?_
        rw [events, tally_append, tally_append, tally_reverse, tally_reverse,
          tally_reap_of_nil (fun _ => rfl), uncalled]
        · omega
        simp [calls]

variable {name : String} {epoch : Nat}

/-- No more calls have begun than are under way, ended or panicked, and none is missing. -/
theorem calls_bounds (h : Reaches (OnQueue name) (empty epoch) c) (x : String) :
    (c.calling.map Claim.id).count x + tally Event.endedIds c.events x ≤
        tally Event.calledIds c.events x ∧
      tally Event.calledIds c.events x ≤ (c.calling.map Claim.id).count x +
        tally Event.endedIds c.events x + tally Event.panickedIds c.events x := by
  revert x
  refine h.invariant_of_change (fun _ _ ok => ok) ?_ ?_
  · intro x
    simp [empty, calling, events]
  intro c a d hi _ change x
  obtain ⟨n, ⟨hb, hp⟩, -⟩ := callsBalanced_change change x
  have hx := hi x
  omega

/-- Acts on one queue among which no executor panics. -/
def Calm (name : String) (c : Cluster) (a : Act) : Prop :=
  OnQueue name c a ∧ ∀ i j, a ≠ .executorReturns i j .panicked

/-- Without panics of executors, the calls are exactly those under way and those ended. -/
theorem calls_of_calm (h : Reaches (Calm name) (empty epoch) c) (x : String) :
    tally Event.calledIds c.events x =
      (c.calling.map Claim.id).count x + tally Event.endedIds c.events x := by
  revert x
  refine h.invariant_of_change (fun _ _ ok => ok.1) ?_ ?_
  · intro x
    simp [empty, calling, events]
  intro c a d hi ok change x
  obtain ⟨n, ⟨hb, -⟩, hz⟩ := callsBalanced_change change x
  have hx := hi x
  cases n with
  | zero => omega
  | succ n =>
      obtain ⟨i, j, ha⟩ := hz (by simp)
      exact absurd ha (ok.2 i j)

end Cluster

end ReliableQueue.Queue
