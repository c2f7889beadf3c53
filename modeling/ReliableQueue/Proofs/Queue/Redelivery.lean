import ReliableQueue.Proofs.Queue.Recoveries

/-!
What recoveries hand back. A recovery looks claims up in one step and takes them back in
later ones, and it does not see whether a claim is still there. So one claim may be handed
back more than once, and a task may be handed back after its settlement; the returned counts
count each time.
-/

namespace ReliableQueue.Queue

variable {k : Keys} {name x : String} {a : Act} {c d : Cluster}

/-! ### Counts -/

/-- Whether an event tells of a task that a recovery handed back or of how many. -/
def Event.isOfRecovery : Event → Bool
  | recovered _ | recoveredTotal _ => true
  | _ => false

/-- The count that a recovery returned. -/
def Event.returnedCount : Event → Nat
  | recoveredTotal count => count
  | _ => 0

/-- The sum of the counts that recoveries have returned. -/
def returned (es : List Event) : Nat := (es.map Event.returnedCount).sum

/-- How many tasks recoveries have handed back. -/
def handedBack (es : List Event) : Nat := (es.flatMap Event.recoveredIds).length

/-- How many claims recoveries have removed, by a history with the latest event first. -/
def taken : List Event → Nat
  | [] => 0
  | e :: earlier => e.recoveredIds.countP (stands · earlier) + taken earlier

/-- How many tasks recoveries have handed back whose claim did not stand any more. -/
def strays : List Event → Nat
  | [] => 0
  | e :: earlier => e.recoveredIds.countP (fun x => !stands x earlier) + strays earlier

theorem handedBack_eq (es : List Event) : handedBack es = taken es + strays es := by
  induction es with
  | nil => rfl
  | cons e earlier ih =>
      have split := List.length_eq_countP_add_countP (stands · earlier) (l := e.recoveredIds)
      simp only [handedBack, List.flatMap_cons, List.length_append, taken, strays] at ih ⊢
      simp only [Bool.not_eq_true, Bool.decide_eq_false] at split
      omega

@[simp] theorem returned_append (es es' : List Event) :
    returned (es ++ es') = returned es + returned es' := by
  simp [returned]

@[simp] theorem handedBack_append (es es' : List Event) :
    handedBack (es ++ es') = handedBack es + handedBack es' := by
  simp [handedBack]

@[simp] theorem returned_reverse (es : List Event) : returned es.reverse = returned es := by
  simp [returned]

@[simp] theorem handedBack_reverse (es : List Event) : handedBack es.reverse = handedBack es :=
  (es.reverse_perm.flatMap_right _).length_eq

theorem counts_of_none {es : List Event} (h : ∀ e ∈ es, e.isOfRecovery = false) :
    returned es = 0 ∧ handedBack es = 0 := by
  induction es with
  | nil => exact ⟨rfl, rfl⟩
  | cons e rest ih =>
      have he := h e (by simp)
      have none : e.returnedCount = 0 ∧ e.recoveredIds = [] := by
        cases e <;> first | exact ⟨rfl, rfl⟩ | cases he
      have hr := ih fun e hm => h e (by simp [hm])
      simp only [returned, handedBack, List.map_cons, List.sum_cons, List.flatMap_cons, none,
        List.nil_append, Nat.zero_add] at hr ⊢
      exact hr

/-- How many tasks a recovery under way has handed back. -/
def Recovery.restored : Recovery → Nat
  | ranging => 0
  | restoring _ count => count

def Recovery.Outcome.restored : Recovery.Outcome → Nat
  | going r => r.restored
  | done _ => 0

/-- A recovery counts what it hands back and returns that count. -/
theorem Recovery.step_counts {maxAge : Span} {second : Nat} {m m' : Store.Memory} {r : Recovery}
    {o : Outcome} {es : List Event} (h : r.step k maxAge second m = (o, m', es)) :
    returned es + o.restored = r.restored + handedBack es ∧
      ∀ n, o = .done (.ok n) → returned es = n := by
  cases r with
  | ranging =>
      simp only [step] at h
      split at h <;> cases h
      all_goals exact ⟨rfl, by rintro _ ⟨⟩⟩
  | restoring left count =>
      cases left with
      | nil =>
          cases h
          by_cases hc : count = 0
          · simp [hc, returned, handedBack, restored, Outcome.restored]
          · simp [hc, returned, handedBack, restored, Outcome.restored, Event.returnedCount]
      | cons id rest =>
          simp only [step] at h
          split at h <;> cases h
          all_goals
            simp [returned, handedBack, restored, Outcome.restored, Event.returnedCount]

/-! ### Steps that have nothing to do with recoveries -/

theorem release_isOfRecovery (k : Keys) (id : String) (m : Store.Memory) :
    (release k id m).1.isOfRecovery = false := by
  rcases release_cases k id m with ⟨he, -⟩ | ⟨cause, he, -⟩ <;> rw [he] <;> rfl

theorem requeue_isOfRecovery (k : Keys) (id : String) (m : Store.Memory) :
    (requeue k id m).1.isOfRecovery = false := by
  rcases requeue_cases k id m with ⟨he, -⟩ | ⟨cause, he, -⟩ <;> rw [he] <;> rfl

theorem Fetcher.events_isOfRecovery {s : Setting} {sh : Shared} {f : Fetcher} {m : Moved Fetcher}
    (h : f.step s sh = some m) : ∀ e ∈ m.events, e.isOfRecovery = false := by
  cases f with
  | starting | stopping =>
      cases h
      simp [Event.isOfRecovery]
  | returning id =>
      cases h
      exact List.forall_mem_singleton.mpr (requeue_isOfRecovery _ _ _)
  | undoing id e =>
      cases h
      exact List.forall_mem_cons.mpr
        ⟨requeue_isOfRecovery _ _ _, List.forall_mem_singleton.mpr rfl⟩
  | releasing claim =>
      cases h
      exact List.forall_mem_singleton.mpr (release_isOfRecovery _ _ _)
  | stopped | panicked => cases h
  | checking | popping | holding | loading | stamping | offering | sending | pausing =>
      simp only [step] at h
      repeat' split at h
      all_goals cases h
      all_goals simp [Event.isOfRecovery]

theorem Outcome.event_isOfRecovery (o : Options) (call : Execution) (now : Instant)
    (outcome : Outcome) : (outcome.event o call now).isOfRecovery = false := by
  cases outcome <;> rfl

theorem Worker.events_isOfRecovery {s : Setting} {sh : Shared} {gone : Bool} {w : Worker}
    {m : Moved Worker} (h : w.step s sh gone = some m) :
    ∀ e ∈ m.events, e.isOfRecovery = false := by
  cases w with
  | starting | stopping =>
      cases h
      simp [Event.isOfRecovery]
  | stopped | panicked => cases h
  | idle | receiving | beginning | executing | settling =>
      simp only [step] at h
      repeat' split at h
      all_goals cases h
      all_goals simp [Event.isOfRecovery, finish, Outcome.event]

theorem Worker.returns_isOfRecovery {s : Setting} {sh : Shared} {result : CallResult} {w : Worker}
    {m : Moved Worker} (h : w.returns s sh result = some m) :
    ∀ e ∈ m.events, e.isOfRecovery = false := by
  cases w with
  | executing call =>
      cases result with
      | succeeded | failed e =>
          cases h
          exact List.forall_mem_singleton.mpr (Outcome.event_isOfRecovery _ _ _ _)
      | panicked =>
          cases h
          exact List.forall_mem_singleton.mpr rfl
  | _ => cases h

/-! ### The balance of counts -/

def Stage.restored : Stage → Nat
  | recovering _ recovery => recovery.restored
  | _ => 0

def Sweeper.Stage.restored : Sweeper.Stage → Nat
  | sweeping recovery _ => recovery.restored
  | _ => 0

theorem Stage.restored_of_recovery? {s : Stage} (h : s.recovery? = none) : s.restored = 0 := by
  cases s <;> first | rfl | cases h

theorem Sweeper.step_counts {s : Sweeper} {epoch : Nat} {now : Instant} {heeds : Bool}
    {m m' : Store.Memory} {stage : Stage} {es : List Event}
    (h : s.step k epoch now heeds m = some (stage, m', es)) :
    returned es + stage.restored = s.stage.restored + handedBack es := by
  unfold step at h
  split at h
  · next hs => cases h; rw [hs]; rfl
  · next hs =>
      repeat' split at h
      all_goals cases h
      all_goals rw [hs]; rfl
  · next hs =>
      rw [hs]
      split at h
      · next hr =>
          cases h
          exact (Recovery.step_counts hr).1
      · next count _ _ hr =>
          cases h
          have counts := (Recovery.step_counts hr).1
          have none : ∀ e ∈ if count = 0 then [] else [Event.swept count],
              e.isOfRecovery = false := by
            split <;> simp [Event.isOfRecovery]
          obtain ⟨returned, handed⟩ := counts_of_none none
          simp only [returned_append, handedBack_append, returned, handed]
          exact counts
      · next hr =>
          cases h
          have counts := (Recovery.step_counts hr).1
          simp only [returned_append, handedBack_append]
          exact counts
  · next hs => cases h; rw [hs]; rfl
  all_goals cases h

namespace Cluster

/-- How many tasks the recoveries under way have handed back. -/
def underWay (c : Cluster) : Nat :=
  (c.calls.map (·.stage.restored)).sum + (c.sweepers.map (·.stage.restored)).sum

/-- The counts returned and those to be returned make up what was handed back. -/
def Counted (c : Cluster) : Prop := returned c.events + c.underWay = handedBack c.events

/-- Acts on one queue among which no caller of a recovery gives up. -/
def Attended (name : String) : Cluster → Act → Prop
  | c, .abandon n => ∀ call, c.calls[n]? = some call → call.stage.recovery? = none
  | c, a => OnQueue name c a

theorem counted_same (es : List Event) (events : d.events = es ++ c.events)
    (none : ∀ e ∈ es, e.isOfRecovery = false) (underWay : d.underWay = c.underWay)
    (h : c.Counted) : d.Counted := by
  obtain ⟨hr, hb⟩ := counts_of_none none
  simp only [Counted, events, underWay, returned_append, handedBack_append, hr, hb] at h ⊢
  omega

theorem underWay_set {n : Nat} {call : Call} {s : Stage} (hc : c.calls[n]? = some call)
    (calls : d.calls = c.calls.set n ⟨call.handle, s⟩) (sweepers : d.sweepers = c.sweepers) :
    d.underWay + call.stage.restored = c.underWay + s.restored := by
  have hs := sum_map_set hc ⟨call.handle, s⟩ (fun call => call.stage.restored)
  simp only [underWay, calls, sweepers] at hs ⊢
  omega

theorem counted_stage {n : Nat} {call : Call} {s : Stage} (es : List Event)
    (hc : c.calls[n]? = some call) (old : call.stage.restored = 0) (new : s.restored = 0)
    (calls : d.calls = c.calls.set n ⟨call.handle, s⟩) (sweepers : d.sweepers = c.sweepers)
    (events : d.events = es ++ c.events) (none : ∀ e ∈ es, e.isOfRecovery = false)
    (h : c.Counted) : d.Counted := by
  have hs := underWay_set hc calls sweepers
  exact counted_same _ events none (by omega) h

theorem counted_settle {i : Nat} {r : Run} {sh : Shared} {es : List Event}
    (none : ∀ e ∈ es, e.isOfRecovery = false) (h : c.Counted) : (c.settle i r sh es).Counted := by
  refine counted_same _ (events_settle c i r sh es) ?_ rfl h
  intro e he
  rcases List.mem_append.mp he with he | he
  · obtain ⟨id, rfl⟩ := Run.mem_reap (List.mem_reverse.mp he)
    rfl
  · exact none e (List.mem_reverse.mp he)

theorem none_of_discards {es : List Event} (discards : ∀ e ∈ es, ∃ id, e = .discarded id) :
    ∀ e ∈ es, e.isOfRecovery = false := by
  intro e he
  obtain ⟨id, rfl⟩ := discards e he
  rfl

theorem counted_entry {n : Nat} {call : Call} {hd : Handle} {request : Request}
    (hc : c.calls[n]? = some call) (hs : call.stage = .entering request)
    (entry : Entry c d n call.handle hd request) (h : c.Counted) : d.Counted := by
  have enters {e : Cluster} {s : Stage} (new : s.restored = 0)
      (calls : e.calls = (c.setCall n s).calls) (sweepers : e.sweepers = c.sweepers)
      (events : ∃ es, e.events = es ++ c.events ∧ ∀ e ∈ es, e.isOfRecovery = false) :
      e.Counted := by
    obtain ⟨es, he, none⟩ := events
    exact counted_stage _ hc (by rw [hs]; rfl) new (calls.trans (calls_setCall hc s)) sweepers he
      none h
  cases entry with
  | answered memory result contents eq =>
      subst eq
      exact enters rfl rfl rfl ⟨[], rfl, by simp⟩
  | pushed tasks some asked memory contents eq =>
      subst eq
      exact enters rfl rfl rfl ⟨[.pushed tasks], rfl, by simp [Event.isOfRecovery]⟩
  | launched parent asked lock running eq =>
      subst eq
      exact enters rfl rfl rfl ⟨[.queueStarted hd.options.workers hd.options.bufferSize], rfl,
        by simp [Event.isOfRecovery]⟩
  | taken run r asked lock runtime at_run eq =>
      subst eq
      exact enters rfl rfl rfl ⟨[], rfl, by simp⟩
  | recovering maxAge asked accepted eq =>
      subst eq
      exact enters rfl rfl rfl ⟨[], rfl, by simp⟩

/-- A recovery goes on and counts. -/
theorem counted_recovery {es : List Event} {m n : Nat}
    (counts : returned es + n = m + handedBack es) (underWay : d.underWay + m = c.underWay + n)
    (events : d.events = es.reverse ++ c.events)
    (h : c.Counted) : d.Counted := by
  simp only [Counted, events, returned_append, handedBack_append, returned_reverse,
    handedBack_reverse] at h ⊢
  omega

theorem counted_call {n : Nat} (hp : c.stepCall n = some d) (h : c.Counted) : d.Counted := by
  obtain ⟨call, hd, hc, hh, step⟩ := stepCall_cases hp
  cases step with
  | entered request stage entry => exact counted_entry hc stage entry h
  | joined i loop r next panicked stage run after eq =>
      subst eq
      have new : next.restored = 0 := by
        rcases after with rfl | ⟨rfl, -⟩ <;> rfl
      refine counted_stage _ hc (by rw [stage]; rfl) new (calls_setCall hc _) rfl
        (events_record _ _ _) ?_ h
      split <;> simp [Event.isOfRecovery]
  | drained i r stage run eq =>
      subst eq
      exact counted_stage (s := .releasing i r.channel.buffer.reverse) [] hc (by rw [stage]; rfl)
        rfl (calls_setCall hc _) rfl rfl (by simp) h
  | released i claim rest stage eq =>
      subst eq
      refine counted_stage (s := .releasing i rest) _ hc (by rw [stage]; rfl) rfl
        (calls_setCall hc _) rfl (events_record _ _ _) ?_ h
      exact List.forall_mem_singleton.mpr (release_isOfRecovery _ _ _)
  | ended i stage eq =>
      subst eq
      obtain ⟨es, he, discards⟩ := c.events_letGo_eq i
      refine counted_stage (s := .finished c.now (.ok .done)) (.queueStopped :: es) hc
        (by rw [stage]; rfl) rfl (calls_ended hc _ _) (sweepers_letGo c i) ?_ ?_ h
      · rw [events_record]
        exact congrArg _ he
      · exact List.forall_mem_cons.mpr ⟨rfl, none_of_discards discards⟩
  | recovered maxAge recovery o memory es stage step eq =>
      subst eq
      have counts := (Recovery.step_counts step).1
      refine counted_recovery (c := c) (n := o.restored) counts ?_ (events_record _ _ _) h
      have sum (s : Stage) := underWay_set (d := c.setCall n s) hc (calls_setCall hc s) rfl
      rw [stage] at sum
      rcases o with r | (e | count) <;> exact sum _

theorem counted_sweeper {n : Nat} {heeds : Bool} (hp : c.stepSweeper n heeds = some d)
    (h : c.Counted) :
    d.Counted := by
  obtain ⟨s, hd, stage, memory, es, hs, -, -, hm, rfl⟩ := stepSweeper_cases hp
  have sum := sum_map_set hs { s with stage } (fun s => s.stage.restored)
  refine counted_recovery (c := c) (Sweeper.step_counts hm) ?_ (events_record _ _ _) h
  show (c.calls.map _).sum + _ + _ = (c.calls.map _).sum + _ + _
  rw [Nat.add_assoc, Nat.add_assoc]
  exact congrArg _ sum

theorem counted_step {p : Process} (hp : c.step p = some d) (h : c.Counted) : d.Counted := by
  cases p with
  | fetcher run =>
      obtain ⟨r, hd, m, -, -, hm, rfl⟩ := stepFetcher_cases hp
      exact counted_settle (Fetcher.events_isOfRecovery hm) h
  | worker run index =>
      obtain ⟨r, hd, w, m, -, -, -, hm, rfl⟩ := stepWorker_cases hp
      exact counted_settle (Worker.events_isOfRecovery hm) h
  | call index => exact counted_call hp h
  | sweeper index => exact counted_sweeper hp h
  | disposal handle =>
      obtain ⟨hd, -, -, ⟨-, rfl⟩ | ⟨run, r, -, -, rfl⟩⟩ := stepDisposal_cases hp
      · exact h
      · obtain ⟨es, he, discards⟩ := c.events_letGo_eq run
        refine counted_same es ?_ (none_of_discards discards) ?_ h
        · rw [← he]
          exact events_letGo (by rfl) (by rfl) run
        · simp only [underWay, calls_letGo, sweepers_letGo]
          rfl

theorem counted_abandon {n : Nat}
    (kept : ∀ call, c.calls[n]? = some call → call.stage.recovery? = none) (h : c.Counted) :
    (c.abandon n).Counted := by
  rcases c.abandon_cases n with he | ⟨call, hc, ⟨-, he⟩ | ⟨i, -, he⟩⟩ <;> rw [he]
  · exact h
  · exact counted_stage (s := .dropped) [] hc (Stage.restored_of_recovery? (kept call hc))
      rfl (calls_setCall hc _) rfl rfl (by simp) h
  · obtain ⟨es, grown, discards⟩ := c.events_letGo_eq i
    refine counted_stage (s := .dropped) ((call.stage.left.map (Event.discarded ·.id)).reverse
      ++ es) hc (Stage.restored_of_recovery? (kept call hc)) rfl ?_ ?_ ?_ ?_ h
    · rw [calls_record, calls_letGo]
      exact calls_setCall hc _
    · exact sweepers_letGo _ i
    · rw [events_record, List.append_assoc, ← grown]
      exact congrArg _ (events_letGo (by rfl) (by rfl) i)
    · refine List.forall_mem_append.mpr ⟨?_, none_of_discards discards⟩
      simp [Event.isOfRecovery]

theorem counted_of_reaches {epoch : Nat} (h : Reaches (Attended name) (empty epoch) c) :
    c.Counted := by
  refine h.invariant (I := Counted) (by rfl) ?_
  intro c a d hi ok hp
  cases a with
  | step p => exact counted_step hp hi
  | abandon n =>
      cases hp
      exact counted_abandon ok hi
  | executorReturns i j result =>
      obtain ⟨r, hd, w, m, -, -, -, hm, rfl⟩ := executorReturns_cases hp
      exact counted_settle (Worker.returns_isOfRecovery hm) hi
  | invoke i request =>
      obtain ⟨-, rfl⟩ := invoke_of_perform hp
      refine counted_same (c := c) [] (by rfl) (by simp) ?_ hi
      simp [underWay, Cluster.invoke, Stage.restored]
  | sweep i t config =>
      rcases sweep_of_perform hp with rfl | rfl
      · exact hi
      · refine counted_same (c := c) [] rfl (by simp) ?_ hi
        simp [underWay, Sweeper.Stage.restored]
  | build n options =>
      obtain rfl := build_of_perform hp
      exact hi
  | drop i | newToken | cancel t | failNext point count | elapse t =>
      cases hp
      exact hi

/-! ### What one recovery and all of them do -/

theorem strays_append_of_none {es : List Event} (h : ∀ e ∈ es, e.recoveredIds = [])
    (earlier : List Event) : strays (es ++ earlier) = strays earlier := by
  induction es with
  | nil => rfl
  | cons e rest ih =>
      rw [List.cons_append, strays, h e (by simp), ih fun e hm => h e (by simp [hm])]
      simp

theorem strays_le_append (es earlier : List Event) : strays earlier ≤ strays (es ++ earlier) := by
  induction es with
  | nil => exact Nat.le_refl _
  | cons e rest ih => exact Nat.le_trans ih (Nat.le_add_left _ _)

/-- All recoveries on the way to `c` took the claims of the tasks that they handed back. -/
def AllTook (name : String) (epoch : Nat) (c : Cluster) : Prop :=
  ∀ b a d x, Reaches (OnQueue name) (empty epoch) b → OnQueue name b a → b.perform a = some d →
    Reaches (OnQueue name) d c → d.events = .recovered x :: b.events →
      (b.claim? name x).isSome

variable {epoch : Nat}

theorem strays_of_allTook (h : Reaches (OnQueue name) (empty epoch) c)
    (took : AllTook name epoch c) : strays c.events = 0 := by
  induction h with
  | refl => rfl
  | @perform b c a hr ok hp ih =>
      have change := change_of_perform (named_of_reaches (fun _ _ ok => ok) hr) hp
      have before := ih fun b' a' d x hb ok' hp' hd => took b' a' d x hb ok' hp' (.perform hd ok hp)
      rcases recovered_cases change with ⟨es, he, none⟩ | ⟨x, he, -, -, -⟩
      · rw [he, strays_append_of_none none]
        exact before
      · have claimed := took b a c x hr ok hp .refl he
        rw [claimed_of_reaches hr x] at claimed
        rw [he, strays, before]
        simp [claimed]

theorem allTook_of_strays (none : strays c.events = 0) : AllTook name epoch c := by
  intro b a d x hb ok hp hd he
  have named := (named_of_reaches (fun _ _ ok => ok) hb).perform ok hp
  obtain ⟨es, grown⟩ := hd.events_grow (fun _ _ ok => ok) named
  have bound := strays_le_append es d.events
  rw [← grown, none, he, strays] at bound
  have stood : stands x b.events = true := by
    cases hs : stands x b.events with
    | true => rfl
    | false => simp [hs] at bound
  rw [claimed_of_reaches hb x, stood]

/-- A recovery that hands `x` back removes its claim exactly when that still stands: when
since the claim `x` was not settled, released or recovered. All recoveries do so exactly when
the history has no stray. And all that recoveries return, and will return, counts the claims
that they removed and the strays. -/
theorem redelivered (h : Reaches (OnQueue name) (empty epoch) c) :
    (∀ a d x, c.perform a = some d → d.events = .recovered x :: c.events →
      d.pending name = c.pending name ++ [x] ∧ d.claim? name x = none ∧
        ((c.claim? name x).isSome ↔ stands x c.events)) ∧
      (AllTook name epoch c ↔ strays c.events = 0) ∧
      (Reaches (Attended name) (empty epoch) c →
        returned c.events + c.underWay = taken c.events + strays c.events) := by
  refine ⟨?_, ⟨strays_of_allTook h, allTook_of_strays⟩, ?_⟩
  · intro a d x hp he
    rcases recovered_cases (change_of_perform (named_of_reaches (fun _ _ ok => ok) h) hp) with
      ⟨es, grown, none⟩ | ⟨y, recovered, -, pending, claim⟩
    · have one : es = [.recovered x] := List.append_cancel_right (grown.symm.trans he)
      have contra := none (.recovered x) (by simp [one])
      cases contra
    · rw [he] at recovered
      cases recovered
      exact ⟨pending, claim, by rw [claimed_of_reaches h x]⟩
  · intro attended
    rw [← handedBack_eq]
    exact counted_of_reaches attended

/-- Two handles look up the one claim in the store before either takes it back. -/
def overlappingRecoveries : List Act :=
  [.build "q" {}, .build "q" {}, .newToken, .invoke 0 (.push [{ id := "x" }]), .step (.call 0),
    .invoke 0 (.start ⟨[0]⟩), .step (.call 1)] ++ List.replicate 8 (.step (.fetcher 0)) ++
    [.elapse 100000000000, .invoke 0 (.recover (.ofSeconds 60)),
      .invoke 1 (.recover (.ofSeconds 60)), .step (.call 2), .step (.call 3), .step (.call 2),
      .step (.call 3), .step (.call 2)]

def overlapped : Cluster := ((empty 0).run overlappingRecoveries).get (by decide +kernel)

theorem run_overlappingRecoveries : (empty 0).run overlappingRecoveries = some overlapped :=
  (Option.some_get _).symm

theorem redelivered_overlapped :
    AllTook "q" 0 overlapped ∧ returned overlapped.events + overlapped.underWay =
      taken overlapped.events + strays overlapped.events ∧ taken overlapped.events = 1 := by
  have reached : Reaches (OnQueue "q") (empty 0) overlapped :=
    .of_run (by simp [overlappingRecoveries, OnQueue]) run_overlappingRecoveries
  have attended : Reaches (Attended "q") (empty 0) overlapped :=
    .of_run (by simp [overlappingRecoveries, Attended, OnQueue]) run_overlappingRecoveries
  exact ⟨(redelivered reached).2.1.mpr (by decide +kernel), (redelivered reached).2.2 attended,
    by decide +kernel⟩

/-- A recovery may append a task although it did not remove its claim: the other one did. -/
theorem not_redelivered_once :
    ¬∀ epoch c a d x, Reaches (OnQueue "q") (empty epoch) c → c.perform a = some d →
      d.events = .recovered x :: c.events → d.pending "q" = c.pending "q" ++ [x] →
      (c.claim? "q" x).isSome := by
  intro once
  have reached : Reaches (OnQueue "q") (empty 0) overlapped :=
    .of_run (by simp [overlappingRecoveries, OnQueue]) run_overlappingRecoveries
  have gone : (overlapped.claim? "q" "x").isSome = false := by decide +kernel
  have facts : (overlapped.perform (.step (.call 3))).any (fun d =>
      d.events = .recovered "x" :: overlapped.events ∧
        d.pending "q" = overlapped.pending "q" ++ ["x"]) = true := by
    decide +kernel
  cases hd : overlapped.perform (.step (.call 3)) with
  | none =>
      rw [hd] at facts
      cases facts
  | some d =>
      rw [hd, Option.any_some, decide_eq_true_eq] at facts
      rw [once 0 overlapped _ d "x" reached hd facts.1 facts.2] at gone
      cases gone

end Cluster

end ReliableQueue.Queue
