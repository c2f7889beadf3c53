import ReliableQueue.Proofs.Lists
import ReliableQueue.Proofs.Queue.Loops
import ReliableQueue.Proofs.Queue.Runs

/-!
The places of tasks outside the store: the fetchers, the channels, the stops that empty a
channel, and the workers; and what the small updates of a cluster do to them.
-/

namespace ReliableQueue.Queue

/-- The tasks that a stop has taken out of a channel and not yet released. -/
def Stage.left : Stage → List Claim
  | .releasing _ left => left
  | _ => []

/-- The run that a stop under way ends. -/
def Stage.stopping? : Stage → Option Nat
  | .joining run _ | .draining run | .releasing run _ => some run
  | _ => none

theorem Stage.left_of_stopping? {s : Stage} (h : s.stopping? = none) : s.left = [] := by
  cases s <;> first | rfl | cases h

def Stage.recovery? : Stage → Option Recovery
  | .recovering _ recovery => some recovery
  | _ => none

def Sweeper.Stage.recovery? : Sweeper.Stage → Option Recovery
  | .sweeping recovery _ => some recovery
  | _ => none

/-- The tasks that a recovery has looked up and is going to hand back. -/
def Recovery.left : Recovery → List String
  | ranging => []
  | restoring left _ => left

namespace Run

/-- The identifier that the fetcher has in hand. -/
def inHand (r : Run) : List String := r.fetcher.held?.toList

/-- The tasks that the workers have received and not settled. -/
def working (r : Run) : List Claim := r.workers.flatMap (·.held?.toList)

/-- Those of them whose calls have begun. -/
def calling (r : Run) : List Claim := r.workers.flatMap (·.calling?.toList)

@[simp] theorem reap_token (r : Run) : r.reap.1.token = r.token := by
  unfold reap; split <;> rfl

@[simp] theorem reap_handle (r : Run) : r.reap.1.handle = r.handle := by
  unfold reap; split <;> rfl

@[simp] theorem reap_fetcher (r : Run) : r.reap.1.fetcher = r.fetcher := by
  unfold reap; split <;> rfl

@[simp] theorem reap_workers (r : Run) : r.reap.1.workers = r.workers := by
  unfold reap; split <;> rfl

@[simp] theorem reap_kept (r : Run) : r.reap.1.kept = r.kept := by
  unfold reap; split <;> rfl

theorem reap_buffer_of_nil {r : Run} (h : r.channel.buffer = []) :
    r.reap.1.channel.buffer = [] := by
  unfold reap; split
  · rfl
  · exact h

/-- A channel that goes away loses exactly what it holds. -/
theorem reap_cases (r : Run) :
    (r.reap.1.channel.buffer = r.channel.buffer ∧ r.reap.2 = []) ∨
      (r.reap.1.channel.buffer = [] ∧
        r.reap.2 = r.channel.buffer.map (Event.discarded ·.id)) := by
  unfold reap
  split
  · exact .inr ⟨rfl, rfl⟩
  · exact .inl ⟨rfl, rfl⟩

theorem mem_reap {r : Run} {e : Event} (h : e ∈ r.reap.2) : ∃ id, e = .discarded id := by
  rcases r.reap_cases with ⟨-, hr⟩ | ⟨-, hr⟩ <;> rw [hr] at h
  · cases h
  · obtain ⟨claim, -, rfl⟩ := List.mem_map.mp h
    exact ⟨claim.id, rfl⟩

/-- Nothing is lost where the channel stays or is empty. -/
theorem reap_same {r : Run} (h : r.kept = true ∨ r.channel.buffer = []) :
    r.reap.1.channel.buffer = r.channel.buffer ∧ r.reap.2 = [] := by
  unfold reap
  split
  · next gone =>
      rcases h with h | h
      · simp [isAbandoned, h] at gone
      · exact ⟨h.symm, by rw [h]; rfl⟩
  · exact ⟨rfl, rfl⟩

end Run

namespace Cluster

/-- The events so far, latest first. -/
def events (c : Cluster) : List Event := c.history.map Record.event

/-- The backlog of the queue stored under `name`. -/
def pending (name : String) (c : Cluster) : List String :=
  c.memory.contents.list (Keys.ofName name).pending

def inHand (c : Cluster) : List String := c.runs.flatMap Run.inHand

/-- The tasks in the channels. -/
def buffered (c : Cluster) : List Claim := c.runs.flatMap (·.channel.buffer)

/-- The tasks that stops have taken out of channels and not yet released. -/
def left (c : Cluster) : List Claim := c.calls.flatMap (·.stage.left)

def working (c : Cluster) : List Claim := c.runs.flatMap Run.working

/-- The recoveries under way. -/
def recoveries (c : Cluster) : List Recovery :=
  c.calls.filterMap (·.stage.recovery?) ++ c.sweepers.filterMap (·.stage.recovery?)

def calling (c : Cluster) : List Claim := c.runs.flatMap Run.calling

/-! ### Parts of a cluster after small updates -/

variable {c d : Cluster}

@[simp] theorem memory_record (c : Cluster) (i : Nat) (es : List Event) :
    (c.record i es).memory = c.memory := rfl

@[simp] theorem calls_record (c : Cluster) (i : Nat) (es : List Event) :
    (c.record i es).calls = c.calls := rfl

@[simp] theorem handles_record (c : Cluster) (i : Nat) (es : List Event) :
    (c.record i es).handles = c.handles := rfl

@[simp] theorem events_record (c : Cluster) (i : Nat) (es : List Event) :
    (c.record i es).events = es.reverse ++ c.events := by
  simp [events, record, Function.comp_def]

@[simp] theorem memory_setCall (c : Cluster) (n : Nat) (s : Stage) :
    (c.setCall n s).memory = c.memory := rfl

@[simp] theorem handles_setCall (c : Cluster) (n : Nat) (s : Stage) :
    (c.setCall n s).handles = c.handles := rfl

theorem calls_setCall {n : Nat} {call : Call} (h : c.calls[n]? = some call) (s : Stage) :
    (c.setCall n s).calls = c.calls.set n ⟨call.handle, s⟩ :=
  modify_of_getElem? h _

theorem calls_setCall_of {b : Cluster} {n : Nat} {call : Call} (same : b.calls = c.calls)
    (h : c.calls[n]? = some call) (s : Stage) :
    (b.setCall n s).calls = c.calls.set n ⟨call.handle, s⟩ := by
  rw [calls_setCall (same ▸ h), same]

@[simp] theorem memory_setHandle (c : Cluster) (i : Nat) (h : Handle) :
    (c.setHandle i h).memory = c.memory := rfl

@[simp] theorem calls_setHandle (c : Cluster) (i : Nat) (h : Handle) :
    (c.setHandle i h).calls = c.calls := rfl

@[simp] theorem runs_settle (c : Cluster) (i : Nat) (r : Run) (sh : Shared) (es : List Event) :
    (c.settle i r sh es).runs = c.runs.set i ({ r with channel := sh.channel }.reap).1 := rfl

theorem events_settle (c : Cluster) (i : Nat) (r : Run) (sh : Shared) (es : List Event) :
    (c.settle i r sh es).events =
      ({ r with channel := sh.channel }.reap).2.reverse ++ es.reverse ++ c.events := by
  show (Cluster.record _ _ (es ++ _)).events = _
  simp only [events_record, List.reverse_append, List.append_assoc]
  rfl

theorem left_set {n : Nat} {call : Call} {s : Stage} (h : c.calls[n]? = some call)
    (hs : s.left = call.stage.left) (hd : d.calls = c.calls.set n ⟨call.handle, s⟩) :
    d.left = c.left := by
  unfold left
  rw [hd]
  exact flatMap_set_of_eq h hs

theorem count_left_set {n : Nat} {call : Call} {s : Stage} (hc : c.calls[n]? = some call)
    (calls : d.calls = c.calls.set n ⟨call.handle, s⟩) (x : String) :
    (d.left.map Claim.id).count x + (call.stage.left.map Claim.id).count x =
      (c.left.map Claim.id).count x + (s.left.map Claim.id).count x := by
  simp only [left, calls, List.map_flatMap]
  exact count_flatMap_set hc ⟨call.handle, s⟩ (fun call => call.stage.left.map Claim.id) x

@[simp] theorem calls_letGo (c : Cluster) (i : Nat) : (c.letGo i).calls = c.calls := by
  unfold letGo; split <;> rfl

@[simp] theorem handles_letGo (c : Cluster) (i : Nat) : (c.letGo i).handles = c.handles := by
  unfold letGo; split <;> rfl

@[simp] theorem sweepers_letGo (c : Cluster) (i : Nat) :
    (c.letGo i).sweepers = c.sweepers := by
  unfold letGo; split <;> rfl

@[simp] theorem memory_letGo (c : Cluster) (i : Nat) : (c.letGo i).memory = c.memory := by
  unfold letGo; split <;> rfl

/-- Only the channel of the run that is let go can lose anything. -/
theorem letGo_cases (c : Cluster) (i : Nat) :
    ((c.letGo i).runs = c.runs ∧ (c.letGo i).events = c.events) ∨
      ∃ r, c.runs[i]? = some r ∧
        (c.letGo i).runs = c.runs.set i ({ r with kept := false }.reap).1 ∧
        (c.letGo i).events = ({ r with kept := false }.reap).2.reverse ++ c.events := by
  cases hr : c.runs[i]? with
  | none => exact .inl (by simp only [letGo, hr, and_self])
  | some r =>
      refine .inr ⟨r, rfl, ?_⟩
      simp only [letGo, hr, runs_settle, events_settle, List.reverse_nil, List.append_nil]
      exact ⟨rfl, rfl⟩

theorem events_letGo_eq (c : Cluster) (i : Nat) :
    ∃ es, (c.letGo i).events = es ++ c.events ∧ ∀ e ∈ es, ∃ id, e = .discarded id := by
  rcases c.letGo_cases i with ⟨-, he⟩ | ⟨r, -, -, he⟩
  · exact ⟨[], he, fun _ hm => absurd hm List.not_mem_nil⟩
  · exact ⟨_, he, fun e hm => Run.mem_reap (List.mem_reverse.mp hm)⟩

theorem runs_letGo (h : d.runs = c.runs) (i : Nat) : (d.letGo i).runs = (c.letGo i).runs := by
  unfold letGo
  rw [h]
  split
  · exact h
  · simp only [runs_settle, h]
    rfl

theorem events_letGo (h : d.runs = c.runs) (he : d.events = c.events) (i : Nat) :
    (d.letGo i).events = (c.letGo i).events := by
  unfold letGo
  rw [h]
  split
  · exact he
  · simp only [events_settle, he]
    rfl

/-- Whoever gives up a stop under way lets the channel go and loses what the stop had. -/
theorem abandon_cases (c : Cluster) (n : Nat) :
    c.abandon n = c ∨ ∃ call, c.calls[n]? = some call ∧
      ((call.stage.stopping? = none ∧ c.abandon n = c.setCall n .dropped) ∨
        ∃ i, call.stage.stopping? = some i ∧ c.abandon n =
          (({ c.setCall n .dropped with
              handles := c.handles.modify call.handle ({ · with lock := none }) } : Cluster).letGo
            i).record call.handle (call.stage.left.map (Event.discarded ·.id))) := by
  unfold abandon
  split
  · exact .inl rfl
  · next call hc =>
      split
      · exact .inl rfl
      · refine .inr ⟨call, hc, ?_⟩
        cases hs : call.stage with
        | joining run loop | draining run | releasing run left => exact .inr ⟨run, rfl, rfl⟩
        | _ => exact .inl ⟨rfl, rfl⟩

/-- Giving up a call that is over changes nothing. -/
theorem live_or_abandon {c : Cluster} {n : Nat} {call : Call} (hc : c.calls[n]? = some call) :
    call.stage.isLive = true ∨ c.abandon n = c := by
  cases live : call.stage.isLive with
  | true => exact .inl rfl
  | false =>
      unfold abandon
      exact .inr (by simp [hc, live])

end Cluster

end ReliableQueue.Queue
