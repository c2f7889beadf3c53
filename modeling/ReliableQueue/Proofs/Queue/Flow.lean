import ReliableQueue.Proofs.Queue.Effects

/-!
How tasks flow through a cluster: from the backlog into the hand of a fetcher, once claimed
towards the workers, and into their hands. Whatever comes to a place stays there or leaves it
in one of the ways that events tell of.
-/

namespace ReliableQueue.Queue

variable {k : Keys} {name x : String} {a : Act} {c d : Cluster}

/-! ### Places -/

namespace Run

/-- What the fetcher has popped and is still to look up. -/
def unloaded (r : Run) : List String := r.fetcher.unloaded?.toList

/-- What the fetcher has popped and not claimed. -/
def unclaimed (r : Run) : List String := r.fetcher.unclaimed?.toList

/-- What is claimed and was not received by a worker. -/
def sending (r : Run) : List Claim := r.fetcher.claimed?.toList ++ r.channel.buffer

end Run

namespace Cluster

def unloaded (c : Cluster) : List String := c.runs.flatMap Run.unloaded

def unclaimed (c : Cluster) : List String := c.runs.flatMap Run.unclaimed

def sending (c : Cluster) : List Claim := c.runs.flatMap Run.sending ++ c.left

end Cluster

/-- How many occurrences of a task were popped and not looked up, popped and not claimed, claimed
and not received, and received and not settled. -/
structure Stock where
  unloaded : Nat
  unclaimed : Nat
  sending : Nat
  working : Nat

def Run.stock (x : String) (r : Run) : Stock :=
  ⟨r.unloaded.count x, r.unclaimed.count x, (r.sending.map Claim.id).count x,
    (r.working.map Claim.id).count x⟩

def Cluster.stock (x : String) (c : Cluster) : Stock :=
  ⟨c.unloaded.count x, c.unclaimed.count x, (c.sending.map Claim.id).count x,
    (c.working.map Claim.id).count x⟩

/-- What comes into a place is in it afterwards, or has left it. A fetcher may give up a task
before it looks it up. -/
structure Flow (x : String) (es : List Event) (before after : Stock) : Prop where
  look : tally Event.loadedIds es x + after.unloaded ≤
    tally Event.poppedIds es x + before.unloaded
  hand : tally Event.poppedIds es x + before.unclaimed =
    after.unclaimed + tally Event.claimedIds es x + tally Event.requeuedIds es x +
      tally Event.unqueuedIds es x
  line : tally Event.claimedIds es x + before.sending =
    after.sending + tally Event.receivedIds es x + tally Event.releasedIds es x +
      tally Event.unreleasedIds es x + tally Event.discardedIds es x
  work : tally Event.receivedIds es x + before.working =
    after.working + tally Event.endedIds es x + tally Event.panickedIds es x

namespace Flow

variable {es es' : List Event} {s t u : Stock}

theorem refl (s : Stock) : Flow x [] s s := by
  constructor <;> simp

theorem append (later : Flow x es' t u) (h : Flow x es s t) : Flow x (es' ++ es) s u := by
  obtain ⟨look, hand, line, work⟩ := h
  obtain ⟨look', hand', line', work'⟩ := later
  constructor <;> simp only [tally_append] <;> omega

theorem reverse (h : Flow x es s t) : Flow x es.reverse s t := by
  obtain ⟨look, hand, line, work⟩ := h
  constructor <;> simpa only [tally_reverse]

theorem of_quiet (h : Quiet es) (s : Stock) : Flow x es s s := by
  constructor <;> simp [tally_quiet, h]

theorem fewer (h : Flow x es s t) {n : Nat} (fewer : n ≤ t.unloaded) :
    Flow x es s { t with unloaded := n } :=
  ⟨by have := h.look; simp only; omega, h.hand, h.line, h.work⟩

/-- What is discarded was claimed and not received. -/
theorem of_discards (claims : List Claim) (unloaded unclaimed sending working : Nat) :
    Flow x (claims.map (Event.discarded ·.id))
      ⟨unloaded, unclaimed, (claims.map Claim.id).count x + sending, working⟩
      ⟨unloaded, unclaimed, sending, working⟩ := by
  induction claims with
  | nil => constructor <;> simp
  | cons claim rest ih =>
      obtain ⟨look, hand, line, work⟩ := ih
      constructor <;> simp [List.count_cons] at look hand line work ⊢ <;> omega

end Flow

/-! ### Steps -/

/-- A channel that goes away discards what is claimed. -/
theorem Run.flow_reap (r : Run) (x : String) : Flow x r.reap.2 (r.stock x) (r.reap.1.stock x) := by
  rcases r.reap_cases with ⟨hb, he⟩ | ⟨hb, he⟩
  · rw [he]
    simpa [stock, unloaded, unclaimed, sending, working, hb] using Flow.refl (r.stock x)
  · rw [he]
    have discards := Flow.of_discards (x := x) r.channel.buffer (r.unloaded.count x)
      (r.unclaimed.count x) ((r.fetcher.claimed?.toList.map Claim.id).count x)
      ((r.working.map Claim.id).count x)
    simpa [stock, unloaded, unclaimed, sending, working, hb, Nat.add_comm] using discards

theorem Run.flow_fetched {r : Run} {sh : Shared} {m : Moved Fetcher}
    (channel : sh.channel = r.channel) (move : Fetcher.Move k sh r.fetcher m) (x : String) :
    Flow x m.events (r.stock x)
      (Run.stock x { r with fetcher := m.loop, channel := m.shared.channel }) := by
  cases move with
  | quiet held contents same events unclaimed claimed loaded unloaded =>
      have fewer :
          (Run.unloaded { r with fetcher := m.loop, channel := m.shared.channel }).count x ≤
            r.unloaded.count x := by
        rcases unloaded with unloaded | unloaded <;> simp [Run.unloaded, unloaded]
      have stays : Run.stock x { r with fetcher := m.loop, channel := m.shared.channel } =
          { r.stock x with
            unloaded := (Run.unloaded
              { r with fetcher := m.loop, channel := m.shared.channel }).count x } := by
        simp only [stock, Run.unclaimed, sending, working, unclaimed, claimed, same, channel]
      rw [stays]
      exact (Flow.of_quiet events _).fewer fewer
  | popped id rest free held head contents same events loop =>
      obtain ⟨unclaimed, claimed, -, unloaded⟩ := Fetcher.hand_of_free free
      constructor <;>
        simp only [stock, Run.unloaded, Run.unclaimed, sending, working, unloaded, unclaimed,
          claimed, loop, same, channel, events] <;>
        simp [Fetcher.unloaded?, Fetcher.unclaimed?, Fetcher.claimed?]
  | loaded claim was loop payload contents same events
  | claimed claim stamp had held contents same events was loop =>
      constructor <;>
        simp only [stock, Run.unloaded, Run.unclaimed, sending, working, was, loop, same, channel,
          events] <;>
        simp [Fetcher.unloaded?, Fetcher.unclaimed?, Fetcher.claimed?, List.count_cons,
          Nat.add_comm]
  | requeued id notes had free contents same events quiet was
  | requeueFailed id cause notes had free fault contents same events quiet was =>
      obtain ⟨unclaimed, claimed, -, unloaded⟩ := Fetcher.hand_of_free free
      have none : r.fetcher.claimed? = none := by
        cases hf : r.fetcher <;> rw [hf] at was <;> first | rfl | cases was
      constructor <;>
        simp [stock, Run.unloaded, Run.unclaimed, sending, working, was, none, unloaded, unclaimed,
          claimed, same, channel, events, tally_quiet, quiet]
  | sent claim had free contents same events was =>
      obtain ⟨unclaimed, claimed, -, unloaded⟩ := Fetcher.hand_of_free free
      constructor <;>
        simp only [stock, Run.unloaded, Run.unclaimed, sending, working, was, unloaded, unclaimed,
          claimed, same, channel, events] <;>
        simp [Fetcher.unloaded?, Fetcher.unclaimed?, Fetcher.claimed?, Channel.send,
          List.count_cons]
  | released id had free contents same events was
  | releaseFailed id cause had free fault contents same events was =>
      obtain ⟨unclaimed, claimed, -, unloaded⟩ := Fetcher.hand_of_free free
      obtain ⟨claim, was, rfl⟩ := was
      constructor <;>
        simp only [stock, Run.unloaded, Run.unclaimed, sending, working, was, unloaded, unclaimed,
          claimed, same, channel, events] <;>
        simp [Fetcher.unloaded?, Fetcher.unclaimed?, Fetcher.claimed?, List.count_cons]

theorem Run.flow_worked {r : Run} {sh : Shared} {w : Worker} {m : Moved Worker} {j : Nat}
    (channel : sh.channel = r.channel) (hw : r.workers[j]? = some w)
    (move : Worker.Move k sh w m) (x : String) :
    Flow x m.events (r.stock x)
      (Run.stock x { r with workers := r.workers.set j m.loop, channel := m.shared.channel }) := by
  have work : (((r.workers.set j m.loop).flatMap (·.held?.toList)).map Claim.id).count x +
      (w.held?.toList.map Claim.id).count x =
        ((r.workers.flatMap (·.held?.toList)).map Claim.id).count x +
          (m.loop.held?.toList.map Claim.id).count x := by
    simp only [List.map_flatMap]
    exact count_flatMap_set hw m.loop (fun w => w.held?.toList.map Claim.id) x
  cases move with
  | quiet held calling contents same events =>
      have stays : Run.stock x
          { r with workers := r.workers.set j m.loop, channel := m.shared.channel } =
          r.stock x := by
        have workers : (r.workers.set j m.loop).flatMap (·.held?.toList) =
            r.workers.flatMap (·.held?.toList) := flatMap_set_of_eq hw (by rw [held])
        simp only [stock, Run.unloaded, Run.unclaimed, sending, working, workers, same, channel]
      rw [stays]
      exact .of_quiet events _
  | received claim rest free loop head contents same events =>
      rw [free, show m.loop.held? = some claim by rw [loop]; rfl] at work
      rw [channel] at head same
      constructor <;>
        simp only [stock, Run.unloaded, Run.unclaimed, sending, working, head, same, events] <;>
        simp [List.count_cons] at work ⊢ <;> omega
  | called claim had held calling contents same events =>
      rw [held, show w.held? = some claim by rw [had]; rfl] at work
      constructor
      all_goals
        simp only [stock, Run.unloaded, Run.unclaimed, sending, working, same, channel, events]
      case work =>
        simp at work ⊢
        omega
      all_goals simp
  | settled claim had loop contents same events
  | settleFailed claim cause had loop fault contents same events =>
      rw [show w.held? = some claim by rw [had]; rfl, show m.loop.held? = none by rw [loop]; rfl]
        at work
      constructor
      all_goals
        simp only [stock, Run.unloaded, Run.unclaimed, sending, working, same, channel, events]
      case work =>
        simp at work ⊢
        omega
      all_goals simp
  | panicked claim had loop contents same events =>
      rw [had, show m.loop.held? = none by rw [loop]; rfl] at work
      constructor
      all_goals
        simp only [stock, Run.unloaded, Run.unclaimed, sending, working, same, channel, events]
      case work =>
        simp at work ⊢
        omega
      all_goals simp

namespace Cluster

/-- A run goes on, and the flow through it is the flow through the cluster. -/
theorem flow_set {i : Nat} {r r' : Run} {es : List Event} (hr : c.runs[i]? = some r)
    (runs : d.runs = c.runs.set i r') (left : d.left = c.left)
    (h : Flow x es (r.stock x) (r'.stock x)) : Flow x es (c.stock x) (d.stock x) := by
  have unloaded := count_flatMap_set hr r' Run.unloaded x
  have unclaimed := count_flatMap_set hr r' Run.unclaimed x
  have sending := count_flatMap_set hr r' (fun r => r.sending.map Claim.id) x
  have working := count_flatMap_set hr r' (fun r => r.working.map Claim.id) x
  obtain ⟨look, hand, line, work⟩ := h
  simp only [Run.stock] at look hand line work
  constructor <;>
    simp only [stock, Cluster.unloaded, Cluster.unclaimed, Cluster.sending, Cluster.working, runs,
      left, List.map_append, List.map_flatMap, List.count_append] <;>
    omega

theorem stock_same (runs : d.runs = c.runs) (left : d.left = c.left) (x : String) :
    d.stock x = c.stock x := by
  simp only [stock, Cluster.unloaded, Cluster.unclaimed, Cluster.sending, Cluster.working, runs,
    left]

theorem flow_letGo (c : Cluster) (i : Nat) (x : String) :
    ∃ es, (c.letGo i).events = es ++ c.events ∧ Flow x es (c.stock x) ((c.letGo i).stock x) := by
  have left : (c.letGo i).left = c.left := by rw [Cluster.left, calls_letGo, Cluster.left]
  rcases c.letGo_cases i with ⟨runs, events⟩ | ⟨r, hr, runs, events⟩
  · exact ⟨[], events, stock_same runs left x ▸ .refl _⟩
  · exact ⟨_, events, flow_set hr runs left (Run.flow_reap { r with kept := false } x).reverse⟩

/-- A stop that goes on with less than it had taken. -/
theorem flow_left {n : Nat} {call : Call} {s : Stage} {es : List Event}
    (hc : c.calls[n]? = some call) (calls : d.calls = c.calls.set n ⟨call.handle, s⟩)
    (runs : d.runs = c.runs) (u v w z : Nat)
    (h : Flow x es ⟨u, v, (call.stage.left.map Claim.id).count x + z, w⟩
      ⟨u, v, (s.left.map Claim.id).count x + z, w⟩) : Flow x es (c.stock x) (d.stock x) := by
  have taken := count_left_set hc calls x
  obtain ⟨look, hand, line, work⟩ := h
  constructor <;>
    simp only [stock, Cluster.unloaded, Cluster.unclaimed, Cluster.sending, Cluster.working, runs,
      List.map_append, List.count_append] at look hand line work ⊢ <;>
    omega

/-- Every change lets tasks flow as its events say. -/
theorem flow_change (change : Change k a c d) (x : String) :
    ∃ es, d.events = es ++ c.events ∧ Flow x es (c.stock x) (d.stock x) := by
  cases change with
  | quiet contents runs left events =>
      obtain ⟨es, quiet, events⟩ := events
      exact ⟨es, events, stock_same runs left x ▸ .of_quiet quiet _⟩
  | pushed tasks some contents runs left events =>
      refine ⟨[.pushed tasks], events, ?_⟩
      rw [stock_same runs left x]
      constructor <;> simp
  | fetched i r m run live move contents runs left events =>
      exact ⟨_, events, flow_set run runs left
        ((Run.flow_reap _ x).reverse.append (Run.flow_fetched rfl move x).reverse)⟩
  | worked i j r w m run worker move panic contents runs left events =>
      exact ⟨_, events, flow_set run runs left
        ((Run.flow_reap _ x).reverse.append (Run.flow_worked rfl worker move x).reverse)⟩
  | launched r hand buffer working calling contents runs left events =>
      obtain ⟨es, quiet, events⟩ := events
      refine ⟨es, events, ?_⟩
      have idle : r.unloaded = [] ∧ r.unclaimed = [] ∧ r.sending = [] := by
        have free : r.fetcher.held? = none := by simpa [Run.inHand] using hand
        obtain ⟨unclaimed, claimed, -, unloaded⟩ := Fetcher.hand_of_free free
        simp [Run.unloaded, Run.unclaimed, Run.sending, unloaded, unclaimed, claimed, buffer]
      have stays : d.stock x = c.stock x := by
        simp [stock, Cluster.unloaded, Cluster.unclaimed, Cluster.sending, Cluster.working, runs,
          left, idle, working]
      rw [stays]
      exact .of_quiet quiet _
  | drained n i r call run stage draining contents runs calls events =>
      -- What was in the channel is with the stop now.
      have taken := count_left_set stage calls x
      have unloaded : d.unloaded = c.unloaded := by
        rw [Cluster.unloaded, runs]
        exact flatMap_set_of_eq run rfl
      have unclaimed : d.unclaimed = c.unclaimed := by
        rw [Cluster.unclaimed, runs]
        exact flatMap_set_of_eq run rfl
      have working : d.working = c.working := by
        rw [Cluster.working, runs]
        exact flatMap_set_of_eq run rfl
      have sending := count_flatMap_set run { r with channel := r.channel.discard }
        (fun r => r.sending.map Claim.id) x
      simp only [draining, Stage.left, List.map_nil, List.count_nil, List.map_reverse,
        List.count_reverse] at taken
      have emptied : (r.sending.map Claim.id).count x =
          ((Run.sending { r with channel := r.channel.discard }).map Claim.id).count x +
            (r.channel.buffer.map Claim.id).count x := by
        simp [Run.sending, Channel.discard]
      have stays : d.stock x = c.stock x := by
        simp only [stock, unloaded, unclaimed, working, Cluster.sending, runs, List.map_append,
          List.map_flatMap, List.count_append, Stock.mk.injEq, true_and, and_true]
        omega
      exact ⟨[], events, stays ▸ .refl _⟩
  | released n i claim rest call stage releasing contents runs calls events =>
      refine ⟨[.released claim.id], events, flow_left stage calls runs 0 0 0 0 ?_⟩
      constructor <;> simp [releasing, Stage.left, List.count_cons]
  | releaseFailed n i claim rest cause call stage releasing fault contents runs calls events =>
      refine ⟨[.releaseFailed claim.id cause], events, flow_left stage calls runs 0 0 0 0 ?_⟩
      constructor <;> simp [releasing, Stage.left, List.count_cons]
  | letGo i cause contents runs left events =>
      obtain ⟨es, quiet, events⟩ := events
      obtain ⟨es', grown, flow⟩ := c.flow_letGo i x
      refine ⟨es ++ es', by rw [events, grown, List.append_assoc], .append ?_ flow⟩
      rw [stock_same runs (by rw [left, Cluster.left, Cluster.left, calls_letGo]) x]
      exact .of_quiet quiet _
  | forfeited n i call act stage stopping contents runs calls events =>
      obtain ⟨es', grown, flow⟩ := c.flow_letGo i x
      refine ⟨_ ++ es', by rw [events, grown, List.append_assoc], .append ?_ flow⟩
      rw [← calls_letGo c i] at stage calls
      exact flow_left stage calls runs 0 0 0 0 (Flow.of_discards call.stage.left 0 0 0 0).reverse
  | recovered id cause contents runs left events =>
      refine ⟨[.recovered id], events, ?_⟩
      rw [stock_same runs left x]
      constructor <;> simp

end Cluster

end ReliableQueue.Queue
