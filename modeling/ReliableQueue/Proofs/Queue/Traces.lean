import ReliableQueue.Proofs.Queue.Flow
import ReliableQueue.Proofs.Queue.Lookups

/-!
What is left of a run: its events, with their effects on the store and on where tasks are. An
act moves at most one task, so its trace is told by a single event.
-/

namespace ReliableQueue.Queue

variable {k : Keys} {name x : String} {a : Act} {c d : Cluster}

/-! ### One act, one event -/

/-- Whether an event moves no task, or only loses one. -/
def Event.isPassive (e : Event) : Bool := !e.movesTask || e.discardedIds ≠ []

/-- At most one task is moved, and after that nothing is but what is discarded. -/
def Single (es : List Event) : Prop :=
  ∃ rest first, es = rest ++ first ∧ first.length ≤ 1 ∧ ∀ e ∈ rest, e.isPassive = true

/-- `f` reads something only from events that move tasks and do not lose them. -/
def ReadsActs {α : Type} (f : Event → List α) : Prop := ∀ e, e.isPassive = true → f e = []

@[simp] theorem readsActs :
    ReadsActs Event.pushedIds ∧ ReadsActs Event.poppedIds ∧ ReadsActs Event.requeuedIds ∧
      ReadsActs Event.claimedIds ∧ ReadsActs Event.unclaimedIds ∧ ReadsActs Event.releasedIds ∧
      ReadsActs Event.recoveredIds ∧ ReadsActs Event.settledIds ∧
      ReadsActs Event.loadedClaims ∧ ReadsActs Event.calledClaims ∧
      ReadsActs Event.settledClaims ∧ ReadsActs Event.receivedIds ∧
      ReadsActs Event.unreleasedIds ∧ ReadsActs Event.loadedIds := by
  refine ⟨?_, ?_, ?_, ?_, ?_, ?_, ?_, ?_, ?_, ?_, ?_, ?_, ?_, ?_⟩
  all_goals
    intro e he
    cases e <;> first | rfl | cases he

theorem ReadsActs.flatMap {α : Type} {f : Event → List α} {es : List Event} (hf : ReadsActs f)
    (h : ∀ e ∈ es, e.isPassive = true) : es.flatMap f = [] :=
  List.flatMap_eq_nil_iff.mpr fun e he => hf e (h e he)

theorem ReadsActs.tally {f : Event → List String} {es : List Event} (hf : ReadsActs f)
    (h : ∀ e ∈ es, e.isPassive = true) (x : String) : tally f es x = 0 := by
  rw [Queue.tally, hf.flatMap h]
  rfl

namespace Single

variable {es rest : List Event} {e : Event}

theorem isPassive_of_quiet (h : Quiet es) : ∀ e ∈ es, e.isPassive = true := by
  intro e he
  simp [Event.isPassive, h e he]

theorem isPassive_of_discards (h : ∀ e ∈ es, ∃ id, e = .discarded id) :
    ∀ e ∈ es, e.isPassive = true := by
  intro e he
  obtain ⟨id, rfl⟩ := h e he
  rfl

theorem of_passive (h : ∀ e ∈ es, e.isPassive = true) : Single es :=
  ⟨es, [], (List.append_nil es).symm, Nat.zero_le _, h⟩

theorem one (e : Event) : Single [e] := ⟨[], [e], rfl, Nat.le_refl _, by simp⟩

theorem append (later : ∀ e ∈ rest, e.isPassive = true) (h : Single es) : Single (rest ++ es) := by
  obtain ⟨rest', first, rfl, one, passive⟩ := h
  exact ⟨rest ++ rest', first, (List.append_assoc _ _ _).symm, one,
    List.forall_mem_append.mpr ⟨later, passive⟩⟩

/-- All is passive, or all but one event, which comes first. -/
theorem cases (h : Single es) : (∀ e ∈ es, e.isPassive = true) ∨
    ∃ e rest, es = rest ++ [e] ∧ ∀ e ∈ rest, e.isPassive = true := by
  obtain ⟨rest, first, rfl, one, passive⟩ := h
  match first, one with
  | [], _ => exact .inl (by rwa [List.append_nil])
  | [e], _ => exact .inr ⟨e, rest, rfl, passive⟩

/-- What is read from an act is read from the event that comes first. -/
theorem of_tally {f : Event → List String} {x : String} (h : Single es) (hf : ReadsActs f)
    (read : 0 < tally f es x) :
    ∃ e rest, es = rest ++ [e] ∧ x ∈ f e ∧ ∀ e ∈ rest, e.isPassive = true := by
  rcases h.cases with passive | ⟨e, rest, rfl, passive⟩
  · rw [hf.tally passive] at read
    cases read
  · rw [tally_append, hf.tally passive, tally_cons, tally_nil] at read
    exact ⟨e, rest, rfl, List.count_pos_iff.mp (by omega), passive⟩

/-- What is read from the events of one act is read from one of them. -/
theorem reads (h : Single es) :
    (∀ f, ReadsActs f → ∀ x, tally f es x = 0) ∨
      ∃ e, e ∈ es ∧ ∀ f, ReadsActs f → ∀ x, tally f es x = (f e).count x := by
  rcases h.cases with passive | ⟨e, rest, rfl, passive⟩
  · exact .inl fun f hf x => hf.tally passive x
  · refine .inr ⟨e, by simp, fun f hf x => ?_⟩
    rw [tally_append, hf.tally passive]
    simp

end Single

theorem Fetcher.Move.single {sh : Shared} {f : Fetcher} {m : Moved Fetcher}
    (h : Fetcher.Move k sh f m) : Single m.events.reverse := by
  cases h with
  | quiet held contents channel events =>
      exact .of_passive (Single.isPassive_of_quiet fun e he => events e (List.mem_reverse.mp he))
  | requeued id notes had free contents channel events quiet
  | requeueFailed id cause notes had free fault contents channel events quiet =>
      rw [events, List.reverse_cons]
      refine .append (Single.isPassive_of_quiet fun e he => ?_) (.one _)
      exact quiet e (List.mem_reverse.mp he)
  | popped _ _ _ _ _ _ _ events | loaded _ _ _ _ _ _ events | claimed _ _ _ _ _ _ events
  | sent _ _ _ _ _ events | released _ _ _ _ _ events | releaseFailed _ _ _ _ _ _ _ events =>
      rw [events]
      exact .one _

theorem Worker.Move.single {sh : Shared} {w : Worker} {m : Moved Worker}
    (h : Worker.Move k sh w m) : Single m.events.reverse := by
  cases h with
  | quiet held calling contents channel events =>
      exact .of_passive (Single.isPassive_of_quiet fun e he => events e (List.mem_reverse.mp he))
  | received _ _ _ _ _ _ _ events | called _ _ _ _ _ _ events | settled _ _ _ _ _ events
  | settleFailed _ _ _ _ _ _ _ events | panicked _ _ _ _ _ events =>
      rw [events]
      exact .one _

namespace Cluster

theorem single_change (change : Change k a c d) :
    ∃ es, d.events = es ++ c.events ∧ Single es := by
  have reaped (r : Run) : ∀ e ∈ r.reap.2.reverse, e.isPassive = true :=
    Single.isPassive_of_discards fun e he => Run.mem_reap (List.mem_reverse.mp he)
  cases change with
  | quiet _ _ _ events | launched _ _ _ _ _ _ _ _ events =>
      obtain ⟨es, quiet, events⟩ := events
      exact ⟨es, events, .of_passive (Single.isPassive_of_quiet quiet)⟩
  | fetched i r m run live move contents runs left events =>
      exact ⟨_, events, .append (reaped _) move.single⟩
  | worked i j r w m run worker move panic contents runs left events =>
      exact ⟨_, events, .append (reaped _) move.single⟩
  | drained n i r call run stage draining contents runs calls events =>
      exact ⟨[], events, .of_passive (by simp)⟩
  | letGo i cause contents runs left events =>
      obtain ⟨es, quiet, events⟩ := events
      obtain ⟨es', grown, discards⟩ := c.events_letGo_eq i
      exact ⟨es ++ es', by rw [events, grown, List.append_assoc],
        .append (Single.isPassive_of_quiet quiet)
          (.of_passive (Single.isPassive_of_discards discards))⟩
  | forfeited n i call act stage stopping contents runs calls events =>
      obtain ⟨es', grown, discards⟩ := c.events_letGo_eq i
      refine ⟨_ ++ es', by rw [events, grown, List.append_assoc],
        .append (Single.isPassive_of_discards fun e he => ?_)
          (.of_passive (Single.isPassive_of_discards discards))⟩
      obtain ⟨claim, -, rfl⟩ := List.mem_map.mp (List.mem_reverse.mp he)
      exact ⟨claim.id, rfl⟩
  | pushed _ _ _ _ _ events | recovered _ _ _ _ _ events | released _ _ _ _ _ _ _ _ _ _ events
  | releaseFailed _ _ _ _ _ _ _ _ _ _ _ _ events =>
      exact ⟨[_], events, .one _⟩

end Cluster

/-! ### Histories -/

/-- What happened between two clusters: the events in between, latest first, with their effects
on the store, on where tasks are and on what is passed on to executors. -/
structure Trace (k : Keys) (es : List Event) (c d : Cluster) : Prop where
  events : d.events = es ++ c.events
  leads : Leads k c.memory.contents es d.memory.contents
  flow : ∀ x, Flow x es (c.stock x) (d.stock x)
  carry : ∀ Q, Carry Q es (c.load Q) (d.load Q)

namespace Trace

variable {b : Cluster} {es es' : List Event}

theorem refl (k : Keys) (c : Cluster) : Trace k [] c c :=
  ⟨rfl, .nil, fun _ => .refl _, fun _ => .refl _⟩

theorem append (later : Trace k es' c d) (h : Trace k es b c) : Trace k (es' ++ es) b d where
  events := by rw [later.events, h.events, List.append_assoc]
  leads := later.leads.append h.leads
  flow x := (later.flow x).append (h.flow x)
  carry Q := (later.carry Q).append (h.carry Q)

/-- An act leaves a trace with a single event, but for what is lost or moves nothing. -/
theorem of_change (change : Change k a c d) : ∃ es, Trace k es c d ∧ Single es := by
  obtain ⟨es, events, leads⟩ := Cluster.leads_of_change change
  refine ⟨es, ⟨events, leads, fun x => ?_, fun Q => ?_⟩, ?_⟩
  · obtain ⟨es', events', flow⟩ := Cluster.flow_change change x
    rwa [List.append_cancel_right (events.symm.trans events')]
  · obtain ⟨es', events', carry⟩ := Cluster.carry_change change Q
    rwa [List.append_cancel_right (events.symm.trans events')]
  · obtain ⟨es', events', single⟩ := Cluster.single_change change
    rwa [List.append_cancel_right (events.symm.trans events')]

end Trace

namespace Cluster

/-- The trace of one more act. -/
theorem Reaches.next {ok : Cluster → Act → Prop} {epoch : Nat} (h : Reaches ok (empty epoch) c)
    (one : ∀ c a, ok c a → OnQueue name c a) (hp : c.perform a = some d) :
    ∃ es, Trace (.ofName name) es c d ∧ Single es :=
  Trace.of_change (change_of_perform (named_of_reaches one h) hp)

theorem Reaches.trace {ok : Cluster → Act → Prop} (h : Reaches ok c d)
    (one : ∀ c a, ok c a → OnQueue name c a) (named : c.Named name) :
    ∃ es, Trace (.ofName name) es c d := by
  refine (h.invariant (I := fun d => d.Named name ∧ ∃ es, Trace (.ofName name) es c d)
    ⟨named, [], .refl _ c⟩ ?_).2
  rintro b a d ⟨named, es, trace⟩ ok hp
  obtain ⟨es', trace', -⟩ := Trace.of_change (change_of_perform named hp)
  exact ⟨named.perform (one b a ok) hp, es' ++ es, trace'.append trace⟩

/-- On a store that was empty, all is told by the history. -/
theorem trace_of_reaches {ok : Cluster → Act → Prop} {epoch : Nat}
    (h : Reaches ok (empty epoch) c) (one : ∀ c a, ok c a → OnQueue name c a) :
    Trace (.ofName name) c.events (empty epoch) c := by
  obtain ⟨es, trace⟩ := h.trace one (named_empty name epoch)
  have all : c.events = es := trace.events.trans (List.append_nil es)
  rwa [all]

/-- The four accounts of an identifier: of the backlog, of what fetchers have popped, of what
is claimed, and of what workers have received. -/
theorem accounts {ok : Cluster → Act → Prop} {epoch : Nat} (h : Reaches ok (empty epoch) c)
    (one : ∀ c a, ok c a → OnQueue name c a) (x : String) :
    (c.pending name).count x + tally Event.poppedIds c.events x =
        tally Event.pushedIds c.events x + tally Event.recoveredIds c.events x +
          tally Event.requeuedIds c.events x + tally Event.releasedIds c.events x ∧
      tally Event.poppedIds c.events x =
        c.unclaimed.count x + tally Event.claimedIds c.events x +
          tally Event.requeuedIds c.events x + tally Event.unqueuedIds c.events x ∧
      tally Event.claimedIds c.events x =
        (c.sending.map Claim.id).count x + tally Event.receivedIds c.events x +
          tally Event.releasedIds c.events x + tally Event.unreleasedIds c.events x +
          tally Event.discardedIds c.events x ∧
      tally Event.receivedIds c.events x =
        (c.working.map Claim.id).count x + tally Event.endedIds c.events x +
          tally Event.panickedIds c.events x := by
  have trace := trace_of_reaches h one
  have backlog := trace.leads.backlog x
  obtain ⟨-, hand, line, work⟩ := trace.flow x
  have none : ((empty epoch).memory.contents.list (Keys.ofName name).pending).count x = 0 := rfl
  have first : (empty epoch).stock x = ⟨0, 0, 0, 0⟩ := rfl
  simp only [none, Nat.zero_add] at backlog
  simp only [first, Nat.add_zero] at hand line work
  exact ⟨backlog, hand, line, work⟩

end Cluster

end ReliableQueue.Queue
