import ReliableQueue.Proofs.Queue.Batches
import ReliableQueue.Proofs.Queue.Steps
import ReliableQueue.Proofs.Store.Memory
import ReliableQueue.Proofs.Store.Ranges

/-!
What one recovery does when nothing else runs beside it. It looks up the claims that are old
enough and puts them back one by one, each in a transaction of its own; injected failures use
up the first of these transactions, and the claims that they were for stay.
-/

namespace ReliableQueue

open Store (Batch Contents Memory)

namespace Queue

/-- What a store holds once the claims of `ids` were put back, one after the other. -/
structure PutBack (k : Keys) (ids : List String) (c d : Contents) : Prop where
  backlog : d.list k.pending = c.list k.pending ++ ids
  claims : ∀ x, d.score? k.processing x = if x ∈ ids then none else c.score? k.processing x
  lists : ∀ key, key ≠ k.pending → d.list key = c.list key
  scores : ∀ key x, key ≠ k.processing → d.score? key x = c.score? key x
  fields : ∀ key x, d.field? key x = c.field? key x

theorem PutBack.nil (k : Keys) (c : Contents) : PutBack k [] c c :=
  ⟨(List.append_nil _).symm, fun _ => (if_neg List.not_mem_nil).symm, fun _ _ => rfl,
    fun _ _ _ => rfl, fun _ _ => rfl⟩

theorem PutBack.cons {k : Keys} {id : String} {ids : List String} {c d : Contents}
    (rest : PutBack k ids (c.applyAll (recoveryBatch k id).commands) d) :
    PutBack k (id :: ids) c d where
  backlog := by
    rw [rest.backlog, pending_recovery, List.append_assoc, List.singleton_append]
  claims x := by
    rw [rest.claims, score?_recovery]
    by_cases first : x = id <;> simp [first]
  lists key other := by
    rw [rest.lists key other]
    simp [recoveryBatch_commands, other]
  scores key x other := by
    rw [rest.scores key x other]
    simp [recoveryBatch_commands, other]
  fields key x := by rw [rest.fields, field?_recovery]

theorem PutBack.trans {k : Keys} {ids ids' : List String} {c d e : Contents}
    (first : PutBack k ids c d) (rest : PutBack k ids' d e) : PutBack k (ids ++ ids') c e where
  backlog := by rw [rest.backlog, first.backlog, List.append_assoc]
  claims x := by
    rw [rest.claims, first.claims]
    by_cases again : x ∈ ids' <;> simp [again]
  lists key other := (rest.lists key other).trans (first.lists key other)
  scores key x other := (rest.scores key x other).trans (first.scores key x other)
  fields key x := (rest.fields key x).trans (first.fields key x)

/-- What a recovery of the claims of `ids` makes of a store in which nothing else happens:
as many of the first claims stay as transactions are still to fail. -/
structure Recovered (k : Keys) (ids : List String) (m m' : Memory) : Prop where
  contents : PutBack k (ids.drop (m.faults .exec)) m.contents m'.contents
  faults : ∀ p, m'.faults p = if p = .exec then m.faults p - ids.length else m.faults p

/-- What is on record of such a recovery, `e` transactions being still to fail. -/
def recoveryEvents (e : Nat) (ids : List String) : List Event :=
  (ids.take e).map (.recoveryFailed · (.injected "exec")) ++ (ids.drop e).map .recovered

/-- What is on record of the end of a recovery of `n` claims. -/
def recoveryTotal (n : Nat) : List Event := if n = 0 then [] else [.recoveredTotal n]

@[simp] theorem recoveryEvents_nil (e : Nat) : recoveryEvents e [] = [] := by
  simp [recoveryEvents]

theorem recoveryEvents_zero (ids : List String) :
    recoveryEvents 0 ids = ids.map .recovered := by
  simp [recoveryEvents]

theorem Recovered.nil (k : Keys) (m : Memory) : Recovered k [] m m :=
  ⟨by rw [List.drop_nil]; exact .nil k _, fun p => (ite_self _).symm⟩

theorem Recovered.kept {k : Keys} {id : String} {ids : List String} {m m' : Memory} {e : Nat}
    (fault : m.faults .exec = e + 1) (rest : Recovered k ids (m.failNext .exec e) m') :
    Recovered k (id :: ids) m m' where
  contents := by
    rw [fault, List.drop_succ_cons]
    exact rest.contents
  faults p := by
    rw [rest.faults, Memory.faults_failNext]
    split
    · next point => rw [point, fault, List.length_cons, Nat.add_sub_add_right]
    · rfl

theorem Recovered.moved {k : Keys} {id : String} {ids : List String} {m m₁ m' : Memory}
    (fault : m.faults .exec = 0) (same : m₁.faults = m.faults)
    (first : m₁.contents = m.contents.applyAll (recoveryBatch k id).commands)
    (rest : Recovered k ids m₁ m') : Recovered k (id :: ids) m m' where
  contents := by
    have left := rest.contents
    rw [same, fault, first, List.drop_zero] at left
    rw [fault, List.drop_zero]
    exact left.cons
  faults p := by
    rw [rest.faults, same]
    split
    · next point => rw [point, fault, Nat.zero_sub, Nat.zero_sub]
    · rfl

/-- The execution timeout that ages are measured against; without one it is zero. -/
def Handle.timeout (h : Handle) : Span := h.options.executionTimeout.getD .zero

theorem checkMaxAge_of_le {h : Handle} {maxAge : Span} (refused : maxAge ≤ h.timeout) :
    checkMaxAge h.options maxAge = .error (.maxAgeTooSmall maxAge h.timeout) :=
  if_pos refused

theorem checkMaxAge_of_lt {h : Handle} {maxAge : Span} (accepted : h.timeout < maxAge) :
    checkMaxAge h.options maxAge = .ok () :=
  if_neg (Nat.not_le.mpr accepted)

namespace Cluster

variable {c : Cluster} {i : Nat} {h : Handle} {maxAge : Span}

/-- A call on handle `i` has come, the latest one, and is at `stage`. -/
def asked (c : Cluster) (i : Nat) (stage : Stage) : Cluster :=
  { c with calls := c.calls ++ [⟨i, stage⟩] }

theorem call_asked (c : Cluster) (i : Nat) (stage : Stage) :
    (c.asked i stage).calls[c.calls.length]? = some ⟨i, stage⟩ := by
  simp [asked]

theorem setCall_asked (c : Cluster) (i : Nat) (stage next : Stage) :
    (c.asked i stage).setCall c.calls.length next = c.asked i next := by
  have calls : ((c.asked i stage).setCall c.calls.length next).calls = (c.asked i next).calls := by
    rw [calls_setCall (call_asked c i stage), asked, List.set_append_right _ _ (Nat.le_refl _),
      Nat.sub_self, List.set_cons_zero]
    rfl
  simp only [setCall, asked] at calls ⊢
  rw [calls]

/-- The steps of a call that has come last, taken one after the other. -/
theorem run_asked {stage : Stage} {d : Cluster} {m : Nat}
    (h : (c.asked i stage).stepCall c.calls.length = some d) :
    (c.asked i stage).run (List.replicate (m + 1) (.step (.call c.calls.length))) =
      d.run (List.replicate m (.step (.call c.calls.length))) := by
  rw [List.replicate_succ, run, perform, step, h, Option.bind_some]

theorem stepCall_recovering (at_i : c.handles[i]? = some h) (r : Recovery) {o : Recovery.Outcome}
    {memory : Memory} {es : List Event}
    (moved : r.step h.keys maxAge (Clock.wallSecond c.epoch c.now) c.memory = (o, memory, es)) :
    (c.asked i (.recovering maxAge r)).stepCall c.calls.length =
      some (({ c with memory }.record i es).asked i (afterRecovery c.now maxAge o)) := by
  have handle : (c.asked i (.recovering maxAge r)).handles[i]? = some h := at_i
  have step : r.step h.keys maxAge (Clock.wallSecond (c.asked i (.recovering maxAge r)).epoch
      (c.asked i (.recovering maxAge r)).now) (c.asked i (.recovering maxAge r)).memory =
        (o, memory, es) := moved
  simp only [stepCall, call_asked, handle, step, Option.bind_eq_bind, Option.bind_some,
    Option.pure_def]
  exact congrArg some (congrArg (record · i es)
    (setCall_asked { c with memory } i (.recovering maxAge r) _))

/-- The claims that a recovery still seeks are put back one after the other, but for as many
of the first ones as transactions are still to fail. -/
theorem run_restoring (maxAge : Span) (at_i : c.handles[i]? = some h) (ids : List String)
    (count : Nat) :
    ∃ memory, Recovered h.keys ids c.memory memory ∧
      (c.asked i (.recovering maxAge (.restoring ids count))).run
          (List.replicate (ids.length + 1) (.step (.call c.calls.length))) =
        some (({ c with memory }.record i (recoveryEvents (c.memory.faults .exec) ids ++
          recoveryTotal (count + (ids.drop (c.memory.faults .exec)).length))).asked i
            (.finished c.now (.ok (.count
              (count + (ids.drop (c.memory.faults .exec)).length))))) := by
  induction ids generalizing c count with
  | nil =>
      refine ⟨c.memory, .nil _ _, ?_⟩
      rw [List.length_nil, run_asked (stepCall_recovering at_i _ rfl), recoveryEvents_nil,
        List.drop_nil]
      rfl
  | cons id ids ih =>
      cases fault : c.memory.faults .exec with
      | zero =>
          obtain ⟨m, ran, same, first⟩ :=
            Memory.exec_of_none fault (recoveryBatch h.keys id)
          have step : Recovery.step h.keys maxAge (Clock.wallSecond c.epoch c.now) c.memory
              (.restoring (id :: ids) count) =
                (.going (.restoring ids (count + 1)), m, [.recovered id]) := by
            rw [Recovery.step, ran]
          obtain ⟨memory, rest, run⟩ :=
            ih (c := { c with memory := m }.record i [.recovered id]) at_i (count + 1)
          refine ⟨memory, rest.moved fault same first, ?_⟩
          rw [List.length_cons, run_asked (stepCall_recovering at_i _ step)]
          have now : ({ c with memory := m }.record i [.recovered id]).memory.faults .exec = 0 :=
            (congrFun same .exec).trans fault
          rw [now] at run
          refine run.trans ?_
          simp only [List.drop_zero, List.length_cons, recoveryEvents_zero]
          rw [Nat.add_assoc count 1, Nat.add_comm 1]
          rfl
      | succ e =>
          have ran := Memory.exec_of_some fault (b := recoveryBatch h.keys id) rfl
          have step : Recovery.step h.keys maxAge (Clock.wallSecond c.epoch c.now) c.memory
              (.restoring (id :: ids) count) =
                (.going (.restoring ids count), c.memory.failNext .exec e,
                  [.recoveryFailed id (.injected "exec")]) := by
            rw [Recovery.step, ran]
          obtain ⟨memory, rest, run⟩ :=
            ih (c := { c with memory := c.memory.failNext .exec e }.record i
              [.recoveryFailed id (.injected "exec")]) at_i count
          refine ⟨memory, rest.kept fault, ?_⟩
          rw [List.length_cons, run_asked (stepCall_recovering at_i _ step)]
          exact run

theorem stepCall_entering (at_i : c.handles[i]? = some h) (request : Request) :
    (c.asked i (.entering request)).stepCall c.calls.length =
      (c.asked i (.entering request)).enter c.calls.length i h request := by
  have handle : (c.asked i (.entering request)).handles[i]? = some h := at_i
  simp only [stepCall, call_asked, handle, Option.bind_eq_bind, Option.bind_some]

theorem run_invoke (at_i : c.handles[i]? = some h) (owned : h.owned = true) (request : Request)
    (acts : List Act) :
    c.run (.invoke i request :: acts) = (c.asked i (.entering request)).run acts := by
  have allowed : c.isOwned i = true := by simp [isOwned, at_i, owned]
  rw [run, perform, if_pos allowed, Option.bind_some]
  rfl

/-- The claims of a handle's queue that a recovery finds now. -/
def stale (c : Cluster) (h : Handle) (maxAge : Span) : List String :=
  c.memory.contents.range h.keys.processing (cutoff (Clock.wallSecond c.epoch c.now) maxAge)

theorem run_refused (at_i : c.handles[i]? = some h) (owned : h.owned = true)
    (refused : maxAge ≤ h.timeout) :
    c.run [.invoke i (.recover maxAge), .step (.call c.calls.length)] =
      some (c.asked i (.finished c.now (.error (.maxAgeTooSmall maxAge h.timeout)))) := by
  have entered : (c.asked i (.entering (.recover maxAge))).stepCall c.calls.length =
      some (c.asked i (.finished c.now (.error (.maxAgeTooSmall maxAge h.timeout)))) := by
    rw [stepCall_entering at_i, enter, checkMaxAge_of_le refused]
    exact congrArg some (setCall_asked c i _ _)
  rw [run_invoke at_i owned]
  exact run_asked (m := 0) entered

theorem run_accepted (at_i : c.handles[i]? = some h) (owned : h.owned = true)
    (accepted : h.timeout < maxAge) (k : Nat) :
    c.run (.invoke i (.recover maxAge) ::
        List.replicate (k + 1) (.step (.call c.calls.length))) =
      (c.asked i (.recovering maxAge .ranging)).run
        (List.replicate k (.step (.call c.calls.length))) := by
  have entered : (c.asked i (.entering (.recover maxAge))).stepCall c.calls.length =
      some (c.asked i (.recovering maxAge .ranging)) := by
    rw [stepCall_entering at_i, enter, checkMaxAge_of_lt accepted]
    exact congrArg some (setCall_asked c i _ _)
  rw [run_invoke at_i owned, run_asked entered]

theorem run_unranged (at_i : c.handles[i]? = some h) (owned : h.owned = true)
    (accepted : h.timeout < maxAge) {f : Nat} (fault : c.memory.faults .zrangebyscore = f + 1) :
    c.run (.invoke i (.recover maxAge) :: List.replicate 2 (.step (.call c.calls.length))) =
      some ({ c with memory := c.memory.failNext .zrangebyscore f }.asked i
        (.finished c.now (.error (.store (.injected "zrangebyscore"))))) := by
  have ranged : Recovery.step h.keys maxAge (Clock.wallSecond c.epoch c.now) c.memory .ranging =
      (.done (.error (.injected "zrangebyscore")), c.memory.failNext .zrangebyscore f, []) := by
    rw [Recovery.step, Memory.zrangebyscore, Memory.guarded_of_some fault]
    rfl
  rw [run_accepted at_i owned accepted]
  exact run_asked (m := 0) (stepCall_recovering at_i _ ranged)

theorem run_ranged (at_i : c.handles[i]? = some h) (owned : h.owned = true)
    (accepted : h.timeout < maxAge) (fault : c.memory.faults .zrangebyscore = 0) (k : Nat) :
    c.run (.invoke i (.recover maxAge) ::
        List.replicate (k + 1 + 1) (.step (.call c.calls.length))) =
      (c.asked i (.recovering maxAge (.restoring (c.stale h maxAge) 0))).run
        (List.replicate k (.step (.call c.calls.length))) := by
  have ranged : Recovery.step h.keys maxAge (Clock.wallSecond c.epoch c.now) c.memory .ranging =
      (.going (.restoring (c.stale h maxAge) 0), c.memory, []) := by
    rw [Recovery.step, Memory.zrangebyscore, Memory.guarded_of_none fault]
    rfl
  rw [run_accepted at_i owned accepted]
  exact run_asked (stepCall_recovering at_i _ ranged)

/-- A recovery with nothing else beside it. An age within the execution timeout is refused;
then a lookup that fails is what the call answers, and nothing of the store has changed; else,
of the claims stamped up to `maxAge` ago, in order, the first ones stay where they are, one for
each transaction that is still to fail, and all others go to the tail of the backlog, in order.
Nothing else in the store changes. -/
theorem puts_back_stale (c : Cluster) (i : Nat) (h : Handle) (maxAge : Span)
    (at_i : c.handles[i]? = some h) (owned : h.owned = true) :
    ∃ k d, c.run (.invoke i (.recover maxAge) ::
        List.replicate k (.step (.call c.calls.length))) = some d ∧
      (maxAge ≤ h.timeout →
        d = c.asked i (.finished c.now (.error (.maxAgeTooSmall maxAge h.timeout)))) ∧
      (h.timeout < maxAge → ∀ f, c.memory.faults .zrangebyscore = f + 1 →
        d = { c with memory := c.memory.failNext .zrangebyscore f }.asked i
          (.finished c.now (.error (.store (.injected "zrangebyscore"))))) ∧
      (h.timeout < maxAge → c.memory.faults .zrangebyscore = 0 →
        c.memory.contents.IsRange h.keys.processing
            (cutoff (Clock.wallSecond c.epoch c.now) maxAge) (c.stale h maxAge) ∧
        ∃ memory, Recovered h.keys (c.stale h maxAge) c.memory memory ∧
          (∀ x ∈ (c.stale h maxAge).take (c.memory.faults .exec),
            memory.contents.score? h.keys.processing x =
              c.memory.contents.score? h.keys.processing x) ∧
          d = ({ c with memory }.record i
              (recoveryEvents (c.memory.faults .exec) (c.stale h maxAge) ++
                recoveryTotal ((c.stale h maxAge).length - c.memory.faults .exec))).asked i
            (.finished c.now
              (.ok (.count ((c.stale h maxAge).length - c.memory.faults .exec))))) := by
  rcases Nat.lt_or_ge h.timeout.nanos maxAge.nanos with accepted | refused
  · cases fault : c.memory.faults .zrangebyscore with
    | zero =>
        have range := Contents.isRange_range c.memory.contents h.keys.processing
          (cutoff (Clock.wallSecond c.epoch c.now) maxAge)
        obtain ⟨memory, recovered, restored⟩ :=
          run_restoring maxAge at_i (c.stale h maxAge) 0
        refine ⟨_, _, (run_ranged at_i owned accepted fault _).trans restored,
          fun refused => absurd accepted (Nat.not_lt.mpr refused),
          fun _ f some => absurd some (Nat.succ_ne_zero f).symm,
          fun _ _ => ⟨range, memory, recovered, fun x kept => ?_, ?_⟩⟩
        · -- No member of the range comes twice in it.
          have unique : (c.stale h maxAge).Nodup := range.nodup
          rw [← List.take_append_drop (c.memory.faults .exec) (c.stale h maxAge)] at unique
          have apart := List.nodup_append.mp unique
          rw [recovered.contents.claims, if_neg fun again => apart.2.2 x kept x again rfl]
        · rw [List.length_drop, Nat.zero_add]
    | succ f =>
        refine ⟨2, _, run_unranged at_i owned accepted fault,
          fun refused => absurd accepted (Nat.not_lt.mpr refused), fun _ f' some => ?_,
          fun _ none => absurd none (Nat.succ_ne_zero f)⟩
        rw [Nat.succ.inj some]
  · exact ⟨1, _, run_refused at_i owned refused, fun _ => rfl,
      fun accepted => absurd refused (Nat.not_le.mpr accepted),
      fun accepted => absurd refused (Nat.not_le.mpr accepted)⟩

/-- Twenty seconds in, three claims of one queue, of 3, 5 and 18 seconds, the middle one first
in the store; one transaction is to fail. -/
def threeClaimed : Cluster where
  now := 20 * Span.nanosPerSecond
  memory :=
    { contents := ((Contents.empty.setScore "q:processing" "b" (.ofNat 5)).setScore
        "q:processing" "a" (.ofNat 3)).setScore "q:processing" "c" (.ofNat 18)
      faults := fun p => if p = .exec then 1 else 0 }
  handles := [⟨"q", { executionTimeout := none }, false, none, none, true, false⟩]

theorem puts_back_stale_threeClaimed :
    ∃ k d, threeClaimed.run (.invoke 0 (.recover (.ofSeconds 10)) ::
        List.replicate k (.step (.call 0))) = some d ∧
      d.memory.contents.list "q" = ["b"] ∧
      d.memory.contents.score? "q:processing" "a" = some (.ofNat 3) ∧
      d.calls = [⟨0, .finished threeClaimed.now (.ok (.count 1))⟩] := by
  obtain ⟨k, d, run, -, -, restored⟩ := puts_back_stale threeClaimed 0
    ⟨"q", { executionTimeout := none }, false, none, none, true, false⟩ (.ofSeconds 10) rfl rfl
  obtain ⟨-, memory, recovered, kept, rfl⟩ := restored (by decide) rfl
  have low : (threeClaimed.memory.contents.sortedSet "q:processing").entries.filter
      (fun e => e.2.le (cutoff 20 (.ofSeconds 10))) = [("b", .ofNat 5), ("a", .ofNat 3)] := by
    decide +kernel
  have stale : threeClaimed.stale
      ⟨"q", { executionTimeout := none }, false, none, none, true, false⟩ (.ofSeconds 10) =
        ["a", "b"] := by
    show (List.mergeSort (List.filter _ _) Contents.rangeOrder).map Prod.fst = _
    refine (congrArg (fun es => (List.mergeSort es Contents.rangeOrder).map Prod.fst) low).trans ?_
    have order : Contents.rangeOrder ("b", .ofNat 5) ("a", .ofNat 3) = false := by decide +kernel
    simp [List.mergeSort, List.MergeSort.Internal.splitInTwo, order]
  rw [stale] at recovered kept
  refine ⟨k, _, run, recovered.contents.backlog.trans ?_, ?_, by rw [stale]; rfl⟩
  · decide +kernel
  · exact (kept "a" (List.mem_singleton_self "a")).trans (by decide +kernel)

end Cluster

end Queue

end ReliableQueue
