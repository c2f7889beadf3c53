import ReliableQueue.Proofs.Store.Memory
import ReliableQueue.Queue.Worker

/-!
What one step of a loop can do to the task that it has in hand, to the store and to the
channel. Each loop has one relation that lists the possibilities; whatever else is said
about the places of tasks is derived from these lists and not from the loops.
-/

namespace ReliableQueue.Queue

/-- Whether an event tells of a task that changes its place or its claim, or whose payload
is looked up. -/
def Event.movesTask : Event → Bool
  | pushed _ | popped _ | requeued _ | requeueFailed .. | loaded _ | claimed _ | sent _ | released _
  | releaseFailed .. | discarded _ | received _ | called _ | settled _ | settleFailed ..
  | workerPanicked _ | recovered _ => true
  | _ => false

/-- No task changes its place. -/
def Quiet (es : List Event) : Prop := ∀ e ∈ es, e.movesTask = false

@[simp] theorem quiet_nil : Quiet [] := by simp [Quiet]

@[simp] theorem quiet_cons {e : Event} {es : List Event} :
    Quiet (e :: es) ↔ e.movesTask = false ∧ Quiet es := by
  simp [Quiet]

/-- The identifier that a fetcher has taken from the backlog and not claimed. -/
def Fetcher.unclaimed? : Fetcher → Option String
  | .holding id | .returning id | .loading id | .undoing id _ => some id
  | .stamping claim => some claim.id
  | _ => none

/-- The task that a fetcher has claimed and not passed on. -/
def Fetcher.claimed? : Fetcher → Option Claim
  | .offering claim | .sending claim | .releasing claim => some claim
  | _ => none

/-- The task in the hand of a fetcher that has looked its payload up. -/
def Fetcher.loaded? : Fetcher → Option Claim
  | .stamping claim | .offering claim | .sending claim | .releasing claim => some claim
  | _ => none

/-- The identifier in the hand of a fetcher that is still to look its payload up. -/
def Fetcher.unloaded? : Fetcher → Option String
  | .holding id | .loading id => some id
  | _ => none

theorem Fetcher.held?_eq (f : Fetcher) : f.held? = f.unclaimed?.or (f.claimed?.map Claim.id) := by
  cases f <;> rfl

/-- A fetcher with nothing in hand has nothing of any kind. -/
theorem Fetcher.held?_of_not_live {f : Fetcher} (h : f.isLive = false) : f.held? = none := by
  cases f <;> first | rfl | cases h

theorem Worker.held?_of_not_live {w : Worker} (h : w.isLive = false) : w.held? = none := by
  cases w <;> first | rfl | cases h

theorem Fetcher.hand_of_free {f : Fetcher} (h : f.held? = none) :
    f.unclaimed? = none ∧ f.claimed? = none ∧ f.loaded? = none ∧ f.unloaded? = none := by
  cases f <;> first | exact ⟨rfl, rfl, rfl, rfl⟩ | cases h

/-- What a fetcher can do in one step; `m` is what it leads to. -/
inductive Fetcher.Move (k : Keys) (sh : Shared) (f : Fetcher) (m : Moved Fetcher) : Prop where
  | quiet (held : m.loop.held? = f.held?)
      (contents : m.shared.memory.contents = sh.memory.contents)
      (channel : m.shared.channel = sh.channel) (events : Quiet m.events)
      (unclaimed : m.loop.unclaimed? = f.unclaimed?) (claimed : m.loop.claimed? = f.claimed?)
      (loaded : m.loop.loaded? = f.loaded? ∨ m.loop.loaded? = none)
      (unloaded : m.loop.unloaded? = f.unloaded? ∨ m.loop.unloaded? = none)
  | popped (id : String) (rest : List String) (free : f.held? = none)
      (held : m.loop.held? = some id) (head : sh.memory.contents.list k.pending = id :: rest)
      (contents : m.shared.memory.contents = sh.memory.contents.setList k.pending rest)
      (channel : m.shared.channel = sh.channel) (events : m.events = [.popped id])
      (loop : m.loop = .holding id)
  | loaded (claim : Claim) (was : f = .loading claim.id) (loop : m.loop = .stamping claim)
      (payload : claim.payload = (sh.memory.contents.field? k.payloads claim.id).getD [])
      (contents : m.shared.memory.contents = sh.memory.contents)
      (channel : m.shared.channel = sh.channel) (events : m.events = [.loaded claim])
  | claimed (claim : Claim) (stamp : Binary64) (had : f.held? = some claim.id)
      (held : m.loop.held? = some claim.id)
      (contents : m.shared.memory.contents =
        sh.memory.contents.setScore k.processing claim.id stamp)
      (channel : m.shared.channel = sh.channel) (events : m.events = [.claimed claim])
      (was : f = .stamping claim) (loop : m.loop = .offering claim)
  | requeued (id : String) (notes : List Event) (had : f.held? = some id)
      (free : m.loop.held? = none)
      (contents : m.shared.memory.contents = sh.memory.contents.apply (.lpush k.pending id))
      (channel : m.shared.channel = sh.channel)
      (events : m.events = .requeued id :: notes) (quiet : Quiet notes)
      (was : f.unclaimed? = some id)
  | requeueFailed (id : String) (cause : Store.Error) (notes : List Event)
      (had : f.held? = some id) (free : m.loop.held? = none)
      (fault : sh.memory.faults .lpush ≠ 0)
      (contents : m.shared.memory.contents = sh.memory.contents)
      (channel : m.shared.channel = sh.channel)
      (events : m.events = .requeueFailed id cause :: notes) (quiet : Quiet notes)
      (was : f.unclaimed? = some id)
  | sent (claim : Claim) (had : f.held? = some claim.id) (free : m.loop.held? = none)
      (contents : m.shared.memory.contents = sh.memory.contents)
      (channel : m.shared.channel = sh.channel.send claim) (events : m.events = [.sent claim])
      (was : f = .sending claim) (room : sh.channel.hasRoom = true)
      (opened : sh.channel.closed = false)
  | released (id : String) (had : f.held? = some id) (free : m.loop.held? = none)
      (contents : m.shared.memory.contents =
        sh.memory.contents.applyAll (releaseBatch k id).commands)
      (channel : m.shared.channel = sh.channel) (events : m.events = [.released id])
      (was : ∃ claim, f = .releasing claim ∧ claim.id = id)
  | releaseFailed (id : String) (cause : Store.Error) (had : f.held? = some id)
      (free : m.loop.held? = none) (fault : sh.memory.faults .exec ≠ 0)
      (contents : m.shared.memory.contents = sh.memory.contents)
      (channel : m.shared.channel = sh.channel) (events : m.events = [.releaseFailed id cause])
      (was : ∃ claim, f = .releasing claim ∧ claim.id = id)

/-- The release of a claim either commits or fails and then changes nothing. -/
theorem release_cases (k : Keys) (id : String) (m : Store.Memory) :
    ((release k id m).1 = .released id ∧ (release k id m).2.contents =
        m.contents.applyAll (releaseBatch k id).commands) ∨
      ∃ cause, (release k id m).1 = .releaseFailed id cause ∧ m.faults .exec ≠ 0 ∧
        (release k id m).2.contents = m.contents := by
  unfold release
  split
  · next h => exact .inl ⟨rfl, Store.Memory.exec_ok h⟩
  · next e _ h => exact .inr ⟨e, rfl, Store.Memory.exec_error h⟩

theorem requeue_cases (k : Keys) (id : String) (m : Store.Memory) :
    ((requeue k id m).1 = .requeued id ∧ (requeue k id m).2.contents =
        m.contents.apply (.lpush k.pending id)) ∨
      ∃ cause, (requeue k id m).1 = .requeueFailed id cause ∧ m.faults .lpush ≠ 0 ∧
        (requeue k id m).2.contents = m.contents := by
  unfold requeue
  split
  · next h => exact .inl ⟨rfl, Store.Memory.lpush_ok h⟩
  · next e _ h => exact .inr ⟨e, rfl, Store.Memory.lpush_error h⟩

namespace Fetcher

theorem isLive_of_step {s : Setting} {sh : Shared} {f : Fetcher} {m : Moved Fetcher}
    (h : f.step s sh = some m) : f.isLive = true := by
  cases f <;> first | rfl | cases h

/-- A fetcher that puts back what it has popped, whatever it goes on to. -/
theorem move_requeue {k : Keys} {sh : Shared} {f next : Fetcher} {id : String}
    {notes : List Event} (had : f.held? = some id) (was : f.unclaimed? = some id)
    (free : next.held? = none) (quiet : Quiet notes) :
    Move k sh f ⟨next, { sh with memory := (requeue k id sh.memory).2 },
      (requeue k id sh.memory).1 :: notes⟩ := by
  rcases requeue_cases k id sh.memory with ⟨he, hc⟩ | ⟨cause, he, hf, hc⟩
  · exact .requeued id notes had free hc rfl (by rw [he]) quiet was
  · exact .requeueFailed id cause notes had free hf hc rfl (by rw [he]) quiet was

theorem move_release {k : Keys} {sh : Shared} {next : Fetcher} {claim : Claim}
    (free : next.held? = none) :
    Move k sh (.releasing claim) ⟨next, { sh with memory := (release k claim.id sh.memory).2 },
      [(release k claim.id sh.memory).1]⟩ := by
  rcases release_cases k claim.id sh.memory with ⟨he, hc⟩ | ⟨cause, he, hf, hc⟩
  · exact .released claim.id rfl free hc rfl (by rw [he]) ⟨claim, rfl, rfl⟩
  · exact .releaseFailed claim.id cause rfl free hf hc rfl (by rw [he]) ⟨claim, rfl, rfl⟩

/-- A fetcher that goes on with what it has in hand, or with nothing as before. -/
theorem move_on {k : Keys} {sh : Shared} {f next : Fetcher} {memory : Store.Memory}
    {notes : List Event} (hand : next.unclaimed? = f.unclaimed? ∧ next.claimed? = f.claimed?)
    (loaded : next.loaded? = f.loaded? ∨ next.loaded? = none)
    (unloaded : next.unloaded? = f.unloaded? ∨ next.unloaded? = none)
    (contents : memory.contents = sh.memory.contents) (quiet : Quiet notes) :
    Move k sh f ⟨next, { sh with memory }, notes⟩ :=
  .quiet (by rw [held?_eq, held?_eq, hand.1, hand.2]) contents rfl quiet hand.1 hand.2 loaded unloaded

theorem move_pop {k : Keys} {sh : Shared} {s : Setting} {pop : Store.Pop} {m : Moved Fetcher}
    (hk : s.keys = k) (h : step s sh (.popping pop) = some m) : Move k sh (.popping pop) m := by
  subst hk
  simp only [step] at h
  split at h
  · cases h
  · next q memory hp =>
      cases h
      exact move_on ⟨rfl, rfl⟩ (.inl rfl) (.inl rfl) (by rw [Store.Pop.step_waiting hp]) quiet_nil
  · next e memory hp =>
      cases h
      exact move_on ⟨rfl, rfl⟩ (.inl rfl) (.inl rfl) (Store.Pop.step_error hp).2 (by simp [Event.movesTask])
  · next memory hp =>
      cases h
      exact move_on ⟨rfl, rfl⟩ (.inl rfl) (.inl rfl) (by rw [Store.Pop.step_none hp]) quiet_nil
  · next id memory hp =>
      cases h
      obtain ⟨rest, hl, hc⟩ := Store.Pop.step_some hp
      exact .popped id rest rfl rfl hl hc rfl rfl rfl

/-- Every step of a fetcher is one of the moves. -/
theorem move_of_step {k : Keys} {s : Setting} {sh : Shared} {f : Fetcher} {m : Moved Fetcher}
    (hk : s.keys = k) (h : f.step s sh = some m) : Move k sh f m := by
  cases f with
  | popping pop => exact move_pop hk h
  | starting | stopping =>
      cases h
      exact move_on ⟨rfl, rfl⟩ (.inl rfl) (.inl rfl) rfl (by simp [Event.movesTask])
  | stopped | panicked => cases h
  | checking =>
      simp only [step] at h
      repeat' split at h
      all_goals
        cases h
        exact move_on ⟨rfl, rfl⟩ (.inl rfl) (.inl rfl) rfl (by simp [Event.movesTask])
  | pausing resume =>
      simp only [step] at h
      repeat' split at h
      all_goals
        cases h
        try exact move_on ⟨rfl, rfl⟩ (.inl rfl) (.inl rfl) rfl quiet_nil
  | holding id =>
      simp only [step] at h
      split at h
      · cases h
        exact move_on ⟨rfl, rfl⟩ (.inl rfl) (.inr rfl) rfl quiet_nil
      · cases h
        exact move_on ⟨rfl, rfl⟩ (.inl rfl) (.inl rfl) rfl quiet_nil
  | returning id =>
      subst hk
      cases h
      exact move_requeue rfl rfl rfl quiet_nil
  | undoing id e =>
      subst hk
      cases h
      exact move_requeue rfl rfl rfl (by simp [Event.movesTask])
  | loading id =>
      subst hk
      simp only [step] at h
      split at h
      · next hg =>
          cases h
          exact move_on ⟨rfl, rfl⟩ (.inl rfl) (.inr rfl) (Store.Memory.hget_error hg).2 quiet_nil
      · next hg =>
          cases h
          obtain ⟨hp, hm⟩ := Store.Memory.hget_ok hg
          exact .loaded ⟨id, _⟩ rfl rfl (by rw [hp]) (by rw [hm]) rfl rfl
  | stamping claim =>
      subst hk
      simp only [step] at h
      split at h
      · next hz =>
          cases h
          exact move_on ⟨rfl, rfl⟩ (.inr rfl) (.inl rfl) (Store.Memory.zadd_error hz).2 quiet_nil
      · next hz =>
          cases h
          exact .claimed claim s.stamp rfl rfl (Store.Memory.zadd_ok hz) rfl rfl rfl rfl
  | offering claim =>
      simp only [step] at h
      split at h
      all_goals
        cases h
        exact move_on ⟨rfl, rfl⟩ (.inl rfl) (.inl rfl) rfl quiet_nil
  | sending claim =>
      simp only [step] at h
      split at h
      · cases h
        exact move_on ⟨rfl, rfl⟩ (.inl rfl) (.inl rfl) rfl quiet_nil
      · next opened =>
          split at h
          · next room =>
              cases h
              exact .sent claim rfl rfl rfl rfl rfl rfl room (Bool.eq_false_iff.mpr opened)
          · cases h
            exact move_on ⟨rfl, rfl⟩ (.inl rfl) (.inl rfl) rfl quiet_nil
  | releasing claim =>
      subst hk
      cases h
      exact move_release rfl

end Fetcher

/-- The task whose call has begun and which is not settled. -/
def Worker.calling? : Worker → Option Claim
  | .executing call => some call.claim
  | .settling claim => some claim
  | _ => none

/-- A task that was received and whose call is to begin. -/
def Worker.ready? : Worker → Option Claim
  | .beginning claim => some claim
  | _ => none

theorem Worker.ready?_eq (w : Worker) : w.ready? = if w.calling?.isSome then none else w.held? := by
  cases w <;> rfl

/-- What a worker can do in one step, or when the executor ends its call. -/
inductive Worker.Move (k : Keys) (sh : Shared) (w : Worker) (m : Moved Worker) : Prop where
  | quiet (held : m.loop.held? = w.held?) (calling : m.loop.calling? = w.calling?)
      (contents : m.shared.memory.contents = sh.memory.contents)
      (channel : m.shared.channel = sh.channel) (events : Quiet m.events)
  | received (claim : Claim) (rest : List Claim) (free : w.held? = none)
      (loop : m.loop = .beginning claim) (head : sh.channel.buffer = claim :: rest)
      (contents : m.shared.memory.contents = sh.memory.contents)
      (channel : m.shared.channel = { sh.channel with buffer := rest })
      (events : m.events = [.received claim])
  | called (claim : Claim) (had : w = .beginning claim)
      (held : m.loop.held? = some claim) (calling : m.loop.calling? = some claim)
      (contents : m.shared.memory.contents = sh.memory.contents)
      (channel : m.shared.channel = sh.channel) (events : m.events = [.called claim])
  | settled (claim : Claim) (had : w = .settling claim) (loop : m.loop = .idle)
      (contents : m.shared.memory.contents =
        sh.memory.contents.applyAll (settleBatch k claim).commands)
      (channel : m.shared.channel = sh.channel) (events : m.events = [.settled claim])
  | settleFailed (claim : Claim) (cause : Store.Error) (had : w = .settling claim)
      (loop : m.loop = .idle) (fault : sh.memory.faults .exec ≠ 0)
      (contents : m.shared.memory.contents = sh.memory.contents)
      (channel : m.shared.channel = sh.channel)
      (events : m.events = [.settleFailed claim cause])
  | panicked (claim : Claim) (had : w.held? = some claim) (loop : m.loop = .panicked)
      (contents : m.shared.memory.contents = sh.memory.contents)
      (channel : m.shared.channel = sh.channel) (events : m.events = [.workerPanicked claim])

namespace Worker

theorem isLive_of_step {s : Setting} {sh : Shared} {gone : Bool} {w : Worker} {m : Moved Worker}
    (h : w.step s sh gone = some m) : w.isLive = true := by
  cases w <;> first | rfl | cases h

theorem isLive_of_returns {s : Setting} {sh : Shared} {result : CallResult} {w : Worker}
    {m : Moved Worker} (h : w.returns s sh result = some m) : w.isLive = true := by
  cases w <;> first | rfl | cases h

theorem quiet_outcome (o : Options) (call : Execution) (now : Instant) (outcome : Outcome) :
    Quiet [outcome.event o call now] := by
  cases outcome <;> simp [Outcome.event, Event.movesTask]

theorem move_finish {k : Keys} {s : Setting} {sh : Shared} {call : Execution}
    (outcome : Outcome) : Move k sh (.executing call) (finish s sh call outcome) :=
  .quiet rfl rfl rfl rfl (quiet_outcome _ _ _ _)

theorem move_begin {k : Keys} {s : Setting} {sh : Shared} {gone : Bool} {claim : Claim}
    {m : Moved Worker} (h : step s sh gone (.beginning claim) = some m) :
    Move k sh (.beginning claim) m := by
  simp only [step] at h
  split at h
  · cases h
    exact .called claim rfl rfl rfl rfl rfl rfl
  · split at h
    · cases h
      exact .panicked claim rfl rfl rfl rfl rfl
    · cases h
      exact .called claim rfl rfl rfl rfl rfl rfl

theorem move_settle {k : Keys} {s : Setting} {sh : Shared} {gone : Bool} {claim : Claim}
    {m : Moved Worker} (hk : s.keys = k) (h : step s sh gone (.settling claim) = some m) :
    Move k sh (.settling claim) m := by
  subst hk
  simp only [step] at h
  split at h
  · next he =>
      cases h
      exact .settled claim rfl rfl (Store.Memory.exec_ok he) rfl rfl
  · next e _ he =>
      cases h
      obtain ⟨hf, hc⟩ := Store.Memory.exec_error he
      exact .settleFailed claim e rfl rfl hf hc rfl rfl

/-- Every step of a worker is one of the moves. -/
theorem move_of_step {k : Keys} {s : Setting} {sh : Shared} {gone : Bool} {w : Worker}
    {m : Moved Worker} (hk : s.keys = k) (h : w.step s sh gone = some m) : Move k sh w m := by
  cases w with
  | beginning claim => exact move_begin h
  | settling claim => exact move_settle hk h
  | starting | stopping =>
      cases h
      exact .quiet rfl rfl rfl rfl (by simp [Event.movesTask])
  | stopped | panicked => cases h
  | executing call =>
      simp only [step] at h
      split at h
      · cases h
        exact move_finish _
      · cases h
  | idle =>
      simp only [step] at h
      split at h
      all_goals
        cases h
        exact .quiet rfl rfl rfl rfl quiet_nil
  | receiving =>
      simp only [step] at h
      split at h
      · next claim rest hb =>
          cases h
          exact .received claim rest rfl rfl hb rfl rfl rfl
      · split at h
        all_goals
          cases h
          exact .quiet rfl rfl rfl rfl quiet_nil

/-- So is every end of a call that the executor brings about. -/
theorem move_of_returns {k : Keys} {s : Setting} {sh : Shared} {result : CallResult}
    {w : Worker} {m : Moved Worker} (h : w.returns s sh result = some m) : Move k sh w m := by
  cases w with
  | executing call =>
      cases result with
      | succeeded | failed e =>
          cases h
          exact move_finish _
      | panicked =>
          cases h
          exact .panicked call.claim rfl rfl rfl rfl rfl
  | _ => cases h

end Worker

end ReliableQueue.Queue
