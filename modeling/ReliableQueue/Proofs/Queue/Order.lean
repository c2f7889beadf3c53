import ReliableQueue.Proofs.Queue.Lifecycle
import ReliableQueue.Proofs.Queue.Tallies

/-!
The order of tasks. The tasks that workers have received, those in the channel or in the
hands of a stop, the one that the fetcher holds and the backlog stand in one line, in which
they keep the order in which they were pushed.
-/

namespace ReliableQueue.Queue

/-- What `f` reads from the events of a history, from the first event on. -/
def inOrder (f : Event → List String) (es : List Event) : List String := es.reverse.flatMap f

@[simp] theorem inOrder_append (f : Event → List String) (es es' : List Event) :
    inOrder f (es' ++ es) = inOrder f es ++ inOrder f es' := by
  simp [inOrder]

@[simp] theorem inOrder_cons (f : Event → List String) (e : Event) (es : List Event) :
    inOrder f (e :: es) = inOrder f es ++ f e := by
  simp [inOrder]

theorem inOrder_eq_nil {f : Event → List String} {es : List Event} (h : ∀ e ∈ es, f e = []) :
    inOrder f es = [] := by
  simpa [inOrder] using h

/-- Everything that had to go back to the backlog did. -/
def WentBack (es : List Event) : Prop :=
  ∀ e ∈ es, e.unqueuedIds = [] ∧ e.unreleasedIds = []

/-- Whether a task is received or pushed. -/
def Event.isOfLine : Event → Bool
  | received _ | pushed _ => true
  | _ => false

theorem Event.isOfLine_of_quiet {e : Event} (h : e.movesTask = false) : e.isOfLine = false := by
  cases e <;> first | rfl | cases h

/-- A fetcher takes from the head of the backlog, sends to the tail of the channel, and puts
back in between. -/
theorem Fetcher.Move.order {k : Keys} {sh : Shared} {f : Fetcher} {m : Moved Fetcher}
    (h : Fetcher.Move k sh f m) (back : WentBack m.events) :
    m.shared.channel.buffer.map Claim.id ++ m.loop.held?.toList ++
        m.shared.memory.contents.list k.pending =
      sh.channel.buffer.map Claim.id ++ f.held?.toList ++ sh.memory.contents.list k.pending ∧
      ∀ e ∈ m.events, e.isOfLine = false := by
  cases h with
  | quiet held contents channel events =>
      rw [held, contents, channel]
      exact ⟨rfl, fun e he => Event.isOfLine_of_quiet (events e he)⟩
  | popped id rest free held head contents channel events =>
      rw [free, held, head, contents, channel, events]
      simp [Event.isOfLine]
  | loaded claim was loop payload contents channel events =>
      rw [was, loop, contents, channel, events]
      simp [Fetcher.held?, Event.isOfLine]
  | claimed claim stamp had held contents channel events =>
      rw [had, held, contents, channel, events]
      simp [Event.isOfLine]
  | requeued id notes had free contents channel events quiet =>
      rw [had, free, contents, channel, events]
      refine ⟨by simp, ?_⟩
      rintro e (_ | ⟨_, he⟩)
      · rfl
      · exact Event.isOfLine_of_quiet (quiet e he)
  | requeueFailed id cause notes had free fault contents channel events quiet =>
      have hb := (back (.requeueFailed id cause) (by simp [events])).1
      cases hb
  | sent claim had free contents channel events =>
      rw [had, free, contents, channel, events]
      simp [Channel.send, Event.isOfLine]
  | released id had free contents channel events =>
      rw [had, free, contents, channel, events, pending_release]
      simp [Event.isOfLine]
  | releaseFailed id cause had free fault contents channel events =>
      have hb := (back (.releaseFailed id cause) (by simp [events])).2
      cases hb

/-- A worker takes from the head of the channel, if it takes anything. -/
theorem Worker.Move.order {k : Keys} {sh : Shared} {w : Worker} {m : Moved Worker}
    (h : Worker.Move k sh w m) :
    m.shared.memory.contents.list k.pending = sh.memory.contents.list k.pending ∧
      ((∃ claim, sh.channel.buffer = claim :: m.shared.channel.buffer ∧
          m.events = [.received claim]) ∨
        (m.shared.channel = sh.channel ∧ ∀ e ∈ m.events, e.isOfLine = false)) := by
  cases h with
  | quiet held calling contents channel events =>
      exact ⟨by rw [contents], .inr ⟨channel, fun e he => Event.isOfLine_of_quiet (events e he)⟩⟩
  | received claim rest free loop head contents channel events =>
      exact ⟨by rw [contents], .inl ⟨claim, by rw [head, channel], events⟩⟩
  | called claim had held calling contents channel events =>
      exact ⟨by rw [contents], .inr ⟨channel, by simp [events, Event.isOfLine]⟩⟩
  | settled claim had loop contents channel events =>
      exact ⟨by rw [contents, list_settle], .inr ⟨channel, by simp [events, Event.isOfLine]⟩⟩
  | settleFailed claim cause had loop fault contents channel events =>
      exact ⟨by rw [contents], .inr ⟨channel, by simp [events, Event.isOfLine]⟩⟩
  | panicked claim had loop contents channel events =>
      exact ⟨by rw [contents], .inr ⟨channel, by simp [events, Event.isOfLine]⟩⟩

namespace Cluster

variable {name : String} {a : Act} {c d : Cluster}

/-- With all other runs over, the latest has all that is not with a stop or in the store. -/
theorem Latest.line {n : Nat} {r : Run} (latest : Latest c n r) :
    c.inHand = r.inHand ∧ c.buffered = r.channel.buffer :=
  ⟨flatMap_of_only latest.run fun m q hm hq => (latest.spent m q hm hq).inHand,
    flatMap_of_only latest.run fun m q hm hq => (latest.spent m q hm hq).2⟩

/-- The tasks received, those on the way to workers, and the backlog. -/
def line (name : String) (c : Cluster) : List String :=
  inOrder Event.receivedIds c.events ++ (c.buffered ++ c.left.reverse).map Claim.id ++
    c.inHand ++ c.pending name

/-- The tasks in line are those that were pushed, in the order of the pushes. -/
def Ordered (name : String) (c : Cluster) : Prop :=
  c.line name = inOrder Event.pushedIds c.events

/-- Where nobody receives or pushes, only the rest of the line counts. -/
theorem ordered_of_eq (es : List Event) (events : d.events = es ++ c.events)
    (none : ∀ e ∈ es, e.isOfLine = false)
    (rest : (d.buffered ++ d.left.reverse).map Claim.id ++ d.inHand ++ d.pending name =
      (c.buffered ++ c.left.reverse).map Claim.id ++ c.inHand ++ c.pending name)
    (h : c.Ordered name) : d.Ordered name := by
  have received : inOrder Event.receivedIds es = [] :=
    inOrder_eq_nil fun e he => by cases e <;> first | rfl | cases none _ he
  have pushed : inOrder Event.pushedIds es = [] :=
    inOrder_eq_nil fun e he => by cases e <;> first | rfl | cases none _ he
  simp only [Ordered, line, events, inOrder_append, received, pushed, List.append_nil,
    List.append_assoc] at h rest ⊢
  rw [rest]
  exact h

theorem ordered_fetched {i : Nat} {r : Run} {m : Moved Fetcher} (solo : c.Solo)
    (hr : c.runs[i]? = some r) (live : r.fetcher.isLive = true)
    (move : Fetcher.Move (.ofName name) (c.shared r) r.fetcher m)
    (contents : d.memory.contents = m.shared.memory.contents)
    (runs : d.runs = c.runs.set i
      ({ r with fetcher := m.loop, channel := m.shared.channel }.reap).1)
    (left : d.left = c.left)
    (events : d.events = ({ r with fetcher := m.loop, channel := m.shared.channel }.reap).2.reverse
      ++ m.events.reverse ++ c.events)
    (back : WentBack d.events) (h : c.Ordered name) : d.Ordered name := by
  have busy (spent : r.Spent) : False := by
    rw [Run.spent_iff, live] at spent
    cases spent.1
  obtain ⟨latest, kept⟩ := solo.latest hr busy
  obtain ⟨stays, lost⟩ := Run.reap_same
    (r := { r with fetcher := m.loop, channel := m.shared.channel }) (.inl kept)
  rw [lost, List.reverse_nil, List.nil_append] at events
  have back' : WentBack m.events := fun e he => back e (by simp [events, he])
  obtain ⟨order, quiet⟩ := move.order back'
  refine ordered_of_eq _ events (fun e he => quiet e (List.mem_reverse.mp he)) ?_ h
  have none := solo.left_of_live hr live
  obtain ⟨hand, buffer⟩ := latest.line
  obtain ⟨hand', buffer'⟩ := (latest.set runs).line
  rw [left, none, hand, hand', buffer, buffer', stays, pending, pending, contents]
  simp only [List.reverse_nil, List.append_nil, Run.inHand, Run.reap_fetcher]
  exact order

theorem ordered_worked {i j : Nat} {r : Run} {w : Worker} {m : Moved Worker} (solo : c.Solo)
    (hr : c.runs[i]? = some r) (move : Worker.Move (.ofName name) (c.shared r) w m)
    (contents : d.memory.contents = m.shared.memory.contents)
    (runs : d.runs = c.runs.set i
      ({ r with workers := r.workers.set j m.loop, channel := m.shared.channel }.reap).1)
    (left : d.left = c.left)
    (events : d.events =
      ({ r with workers := r.workers.set j m.loop, channel := m.shared.channel }.reap).2.reverse
        ++ m.events.reverse ++ c.events)
    (h : c.Ordered name) : d.Ordered name := by
  have inHand' : d.inHand = c.inHand := by
    rw [inHand, runs]
    exact flatMap_set_of_eq hr (by simp [Run.inHand])
  obtain ⟨same, ⟨claim, head, received⟩ | ⟨channel, quiet⟩⟩ := move.order
  · have busy (spent : r.Spent) : False := by
      have empty : (c.shared r).channel.buffer = [] := spent.2
      rw [empty] at head
      cases head
    obtain ⟨latest, kept⟩ := solo.latest hr busy
    obtain ⟨stays, lost⟩ := Run.reap_same
      (r := { r with workers := r.workers.set j m.loop, channel := m.shared.channel }) (.inl kept)
    rw [lost, received] at events
    replace events : d.events = .received claim :: c.events := events
    have buffer : c.buffered = claim :: m.shared.channel.buffer :=
      latest.line.2.trans head
    have buffer' : d.buffered = m.shared.channel.buffer :=
      (latest.set runs).line.2.trans stays
    have pending' : d.pending name = c.pending name := by
      rw [pending, pending, contents]
      exact same
    rw [Ordered, line, buffer] at h
    rw [Ordered, line, buffer', left, inHand', events, pending', inOrder_cons, inOrder_cons]
    simpa only [Event.receivedIds, Event.pushedIds, List.append_nil, List.cons_append,
      List.map_cons, List.append_assoc, List.nil_append] using h
  · have stays : r.kept = true ∨ m.shared.channel.buffer = [] := by
      by_cases spent : r.Spent
      · exact .inr (channel ▸ spent.2)
      · exact .inl (solo.latest hr spent).2
    obtain ⟨stays, lost⟩ := Run.reap_same
      (r := { r with workers := r.workers.set j m.loop, channel := m.shared.channel }) stays
    rw [lost, List.reverse_nil, List.nil_append] at events
    refine ordered_of_eq _ events (fun e he => quiet e (List.mem_reverse.mp he)) ?_ h
    have buffered' : d.buffered = c.buffered := by
      rw [buffered, runs]
      exact flatMap_set_of_eq hr (stays.trans (by rw [channel]; rfl))
    rw [buffered', left, inHand', pending, pending, contents]
    exact congrArg _ same

/-- A stop takes the channel over, latest task first. -/
theorem ordered_drained {n i : Nat} {r : Run} {call : Call} (solo : c.Solo)
    (run : c.runs[i]? = some r) (stage : c.calls[n]? = some call)
    (draining : call.stage = .draining i) (contents : d.memory.contents = c.memory.contents)
    (runs : d.runs = c.runs.set i { r with channel := r.channel.discard })
    (calls : d.calls = c.calls.set n ⟨call.handle, .releasing i r.channel.buffer.reverse⟩)
    (events : d.events = c.events) (h : c.Ordered name) : d.Ordered name := by
  obtain ⟨-, k, q, under⟩ := solo.sole.course.stop (m := i) stage (by rw [draining]; rfl)
  obtain rfl := Option.some.inj (run.symm.trans under.run)
  obtain ⟨hand, buffer⟩ := under.line
  obtain ⟨hand', buffer'⟩ := (under.toLatest.set runs).line
  have left : c.left = [] := by
    rw [left_of_stop stage under.free, draining]
    rfl
  have left' := left_of_stop_set stage under.free calls
  refine ordered_of_eq [] events (by simp) ?_ h
  rw [left, left', hand, hand', buffer, buffer', pending, pending, contents]
  simp [Stage.left, Channel.discard, Run.inHand]

/-- A stop puts the latest task that it has before all that wait in the store. -/
theorem ordered_released {n i : Nat} {claim : Claim} {rest : List Claim} {call : Call}
    (solo : c.Solo) (stage : c.calls[n]? = some call)
    (releasing : call.stage = .releasing i (claim :: rest))
    (contents : d.memory.contents =
      c.memory.contents.applyAll (releaseBatch (.ofName name) claim.id).commands)
    (runs : d.runs = c.runs) (calls : d.calls = c.calls.set n ⟨call.handle, .releasing i rest⟩)
    (events : d.events = .released claim.id :: c.events) (h : c.Ordered name) :
    d.Ordered name := by
  obtain ⟨-, k, r, under⟩ := solo.sole.course.stop (m := i) stage (by rw [releasing]; rfl)
  have ends := under.stage
  rw [releasing] at ends
  have spent : r.Spent := ends.2
  obtain ⟨hand, buffer⟩ := under.line
  have hand' : d.inHand = c.inHand := by rw [inHand, runs, inHand]
  have buffer' : d.buffered = c.buffered := by rw [buffered, runs, buffered]
  have left : c.left = claim :: rest := by
    rw [left_of_stop stage under.free, releasing]
    rfl
  have left' := left_of_stop_set stage under.free calls
  refine ordered_of_eq [_] events (by simp [Event.isOfLine]) ?_ h
  rw [left, left', hand', buffer', hand, buffer, spent.2, spent.inHand, pending, pending,
    contents, pending_release]
  simp [Stage.left]

theorem ordered_change (ok : Sequential name c a) (solo : c.Solo)
    (change : Change (.ofName name) a c d) (back : WentBack d.events) (h : c.Ordered name) :
    d.Ordered name := by
  cases change with
  | quiet contents runs left events =>
      obtain ⟨es, hq, he⟩ := events
      refine ordered_of_eq _ he (fun e he => Event.isOfLine_of_quiet (hq e he)) ?_ h
      simp only [buffered, inHand, pending, runs, left, contents]
  | pushed tasks some contents runs left events =>
      simp only [Ordered, line, buffered, inHand, pending, runs, left, contents, events,
        pending_push _ _ _ some, inOrder_cons, Event.receivedIds, Event.pushedIds,
        List.append_nil] at h ⊢
      simp only [← h, List.append_assoc]
  | fetched i r m run live move contents runs left events =>
      exact ordered_fetched solo run live move contents runs left events back h
  | worked i j r w m run worker move panic contents runs left events =>
      exact ordered_worked solo run move contents runs left events h
  | launched r hand buffer working calling contents runs left events =>
      obtain ⟨es, hq, he⟩ := events
      refine ordered_of_eq _ he (fun e he => Event.isOfLine_of_quiet (hq e he)) ?_ h
      simp only [buffered, inHand, pending, runs, left, contents, List.flatMap_append,
        List.flatMap_cons, List.flatMap_nil, hand, buffer, List.append_nil]
  | drained n i r call run stage draining contents runs calls events =>
      exact ordered_drained solo run stage draining contents runs calls events h
  | released n i claim rest call stage releasing contents runs calls events =>
      exact ordered_released solo stage releasing contents runs calls events h
  | releaseFailed n i claim rest cause call stage releasing fault contents runs calls events =>
      have hb := (back (.releaseFailed claim.id cause) (by simp [events])).2
      cases hb
  | letGo i cause contents runs left events =>
      obtain ⟨es, hq, he⟩ := events
      obtain ⟨hand, buffer, lost⟩ := solo.letGo cause
      rw [lost] at he
      refine ordered_of_eq _ he (fun e he => Event.isOfLine_of_quiet (hq e he)) ?_ h
      have hand' : d.inHand = c.inHand := by rw [inHand, runs]; exact hand
      have buffer' : d.buffered = c.buffered := by rw [buffered, runs]; exact buffer
      rw [hand', buffer', left, pending, pending, contents]
  | forfeited n i call act stage stopping contents runs calls events =>
      subst act
      rw [ok call stage] at stopping
      cases stopping
  | recovered id cause contents runs left events =>
      rcases cause with ⟨call, hc, recovery⟩ | some
      · rw [solo.recovery? hc] at recovery
        cases recovery
      · exact absurd solo.tended.sweepers some

variable {epoch : Nat}

theorem ordered_empty : (empty epoch).Ordered name := rfl

/-- On a queue with one handle, tasks are received in the order in which they were pushed,
whatever fails, stops and starts again, as long as what has to go back does. -/
theorem ordered_of_reaches (h : Reaches (Sequential name) (empty epoch) c)
    (requeues : ∀ id cause, .requeueFailed id cause ∉ c.events)
    (releases : ∀ id cause, .releaseFailed id cause ∉ c.events) :
    inOrder Event.receivedIds c.events ++ (c.buffered ++ c.left.reverse).map Claim.id ++
        c.inHand ++ c.pending name =
      inOrder Event.pushedIds c.events := by
  suffices all : c.Solo ∧ c.Named name ∧ (WentBack c.events → c.Ordered name) by
    refine all.2.2 fun e he => ?_
    cases e with
    | requeueFailed id cause => exact absurd he (requeues id cause)
    | releaseFailed id cause => exact absurd he (releases id cause)
    | _ => exact ⟨rfl, rfl⟩
  clear requeues releases
  refine h.invariant (I := fun c => c.Solo ∧ c.Named name ∧ (WentBack c.events → c.Ordered name))
    ⟨solo_empty epoch, named_empty name epoch, fun _ => ordered_empty⟩ ?_
  rintro c a d ⟨solo, named, ordered⟩ ok hp
  have change := change_of_perform named hp
  obtain ⟨es, he⟩ := change.events_grow
  refine ⟨solo.perform ok hp, named.perform ok.onQueue hp, fun back => ?_⟩
  have back' : WentBack c.events := fun e hm => back e (by simp [he, hm])
  exact ordered_change ok solo change back (ordered back')

theorem ordered_oneDelivered :
    inOrder Event.receivedIds oneDelivered.events ++
        (oneDelivered.buffered ++ oneDelivered.left.reverse).map Claim.id ++
        oneDelivered.inHand ++ oneDelivered.pending "q" =
      inOrder Event.pushedIds oneDelivered.events ∧
    inOrder Event.receivedIds oneDelivered.events = ["x"] := by
  have run : ((empty 0).perform (.build "q" {})).bind (run · oneDelivery.tail) =
      some oneDelivered := run_oneDelivery
  obtain ⟨built, first, rest⟩ := Option.bind_eq_some_iff.mp run
  have reached : Reaches (Sequential "q") (empty 0) oneDelivered :=
    .head (a := .build "q" {}) ⟨rfl, rfl⟩ first (.of_run (by simp [oneDelivery, Sequential]) rest)
  have back : ∀ e ∈ oneDelivered.events, e.unqueuedIds = [] ∧ e.unreleasedIds = [] := by
    decide +kernel
  refine ⟨ordered_of_reaches reached ?_ ?_, by decide +kernel⟩
  · intro id cause h
    cases (back _ h).1
  · intro id cause h
    cases (back _ h).2

end Cluster

end ReliableQueue.Queue
