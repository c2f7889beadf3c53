import ReliableQueue.Proofs.Store.Traffic

/-!
Pops that wait on one store in memory. Whatever the order of the steps, no value is lost, given out
twice or out of turn, and no pop waits beside a value.
-/

namespace ReliableQueue.Store

/-! ### Pops -/

/-- Where a pop stands after what it did, latest first: it does one thing after it was asked for. -/
inductive Story (i : Nat) : Option Waiter → List Deed → Prop where
  | absent : Story i none []
  | panicked (key : String) : Story i (some ⟨key, .panicked⟩) [.asked i key none]
  | active (key : String) (p : Pop) : Story i (some ⟨key, .active p⟩) [.asked i key (some p.deadline)]
  | took (key value : String) (deadline time : Instant) :
      Story i (some ⟨key, .finished time (.ok (some value))⟩)
        [.took i key value, .asked i key (some deadline)]
  | gaveUp (key : String) (deadline time : Instant) (come : deadline ≤ time) :
      Story i (some ⟨key, .finished time (.ok none)⟩) [.gaveUp i time, .asked i key (some deadline)]
  | failed (key : String) (deadline time : Instant) :
      Story i (some ⟨key, .finished time (.error (.injected "blpop"))⟩)
        [.failed i, .asked i key (some deadline)]
  | dropped (key : String) (deadline : Instant) :
      Story i (some ⟨key, .dropped⟩) [.dropped i, .asked i key (some deadline)]

theorem Story.of_active {i : Nat} {key : String} {p : Pop} {deeds : List Deed}
    (h : Story i (some ⟨key, .active p⟩) deeds) : deeds = [.asked i key (some p.deadline)] := by
  cases h
  rfl

theorem Story.of_absent {i : Nat} {deeds : List Deed} (h : Story i none deeds) : deeds = [] := by
  cases h
  rfl

namespace Traffic

variable {s s' : Traffic} {m m' : Memory} {i j : Nat} {key : String} {p : Pop} {d : Deed}

theorem pops_setPop_self (state : PopState) (listening : Option Nat)
    (here : s.waiters.pops[i]? = some ⟨key, .active p⟩) :
    (s.setPop i state listening).waiters.pops[i]? = some ⟨key, state⟩ :=
  (List.getElem?_modify_eq ..).trans (congrArg _ here)

theorem pops_setPop_other (state : PopState) (listening : Option Nat) (other : i ≠ j) :
    (s.setPop i state listening).waiters.pops[j]? = s.waiters.pops[j]? :=
  List.getElem?_modify_ne _ _ other

theorem deedsOf_record_self (s : Traffic) (owner : d.pop? = some i) :
    (s.record d).deedsOf i = d :: s.deedsOf i :=
  List.filter_cons_of_pos (decide_eq_true owner)

theorem deedsOf_record_other (s : Traffic) (other : d.pop? ≠ some i) :
    (s.record d).deedsOf i = s.deedsOf i :=
  List.filter_cons_of_neg (by simpa using other)

/-- What every step keeps. A pop that has found its list empty is behind the last push, or its list
is empty still. -/
structure Tracked (m : Memory) (s : Traffic) : Prop where
  lists : ∀ key, s.list key = Deed.listAfter key (m.contents.list key) s.deeds
  failures : s.memory.faults .blpop = Deed.failuresAfter (m.faults .blpop) s.deeds
  right : ∀ later d past, s.deeds = later ++ d :: past → d.Right m past
  stories : ∀ i : Nat, Story i s.waiters.pops[i]? (s.deedsOf i)
  listening : ∀ i n, s.listening i = some n → n ≤ s.memory.pushes
  watched : ∀ (i : Nat) key (p : Pop) n, s.waiters.pops[i]? = some ⟨key, .active p⟩ →
    p.seen = some n → n ≤ s.memory.pushes ∧ (n = s.memory.pushes → s.list key = [])

namespace Tracked

theorem begin (now : Instant) (m : Memory) : Tracked m (begin now m) where
  lists _ := rfl
  failures := rfl
  right later _ _ eq := by cases later <;> cases eq
  stories _ := .absent
  listening _ _ eq := by cases eq
  watched _ _ _ _ eq := by cases eq

theorem right_cons (h : Tracked m s) (right : d.Right m s.deeds) (later : List Deed) (e : Deed)
    (past : List Deed) (eq : d :: s.deeds = later ++ e :: past) : e.Right m past := by
  rcases List.cons_eq_append_iff.mp eq with ⟨-, same⟩ | ⟨earlier, -, same⟩
  · cases same
    exact right
  · exact h.right earlier e past same

theorem deedsOf_active (h : Tracked m s) (here : s.waiters.pops[i]? = some ⟨key, .active p⟩) :
    s.deedsOf i = [.asked i key (some p.deadline)] :=
  (here ▸ h.stories i).of_active

/-- One pop moves on. -/
theorem stories_of_pop (h : Tracked m s) {w : Waiter} (here : s'.waiters.pops[i]? = some w)
    (story : Story i (some w) (s'.deedsOf i))
    (others : ∀ j, i ≠ j →
      s'.waiters.pops[j]? = s.waiters.pops[j]? ∧ s'.deedsOf j = s.deedsOf j) (j : Nat) :
    Story j s'.waiters.pops[j]? (s'.deedsOf j) := by
  by_cases same : i = j
  · subst same
    rw [here]
    exact story
  · rw [(others j same).1, (others j same).2]
    exact h.stories j

theorem le_of_listening (h : Tracked m s) {state : PopState} {listening : Option Nat}
    (listens : ∀ n, listening = some n → n ≤ s.memory.pushes) {n : Nat}
    (eq : (s.setPop i state listening).listening j = some n) : n ≤ s.memory.pushes := by
  simp only [setPop] at eq
  split at eq
  · exact listens n eq
  · exact h.listening j n eq

/-- A pop ends with a deed. -/
theorem finish (h : Tracked m s) {state : PopState}
    (here : s.waiters.pops[i]? = some ⟨key, .active p⟩) (owner : d.pop? = some i)
    (lists : ∀ k, m'.contents.list k = d.onList k (s.list k))
    (failures : m'.faults .blpop = d.onFailures (s.memory.faults .blpop))
    (pushes : m'.pushes = s.memory.pushes) (right : d.Right m s.deeds)
    (story : Story i (some ⟨key, state⟩) [d, .asked i key (some p.deadline)]) :
    Tracked m (((s.setMemory m').setPop i state none).record d) := by
  have there : ((s.setMemory m').setPop i state none).waiters.pops[i]? = some ⟨key, state⟩ :=
    pops_setPop_self state none here
  have others (j : Nat) (other : i ≠ j) :
      ((s.setMemory m').setPop i state none).waiters.pops[j]? = s.waiters.pops[j]? :=
    pops_setPop_other state none other
  have told : (((s.setMemory m').setPop i state none).record d).deedsOf i =
      [d, .asked i key (some p.deadline)] :=
    (deedsOf_record_self _ owner).trans (congrArg (d :: ·) (h.deedsOf_active here))
  exact {
    lists := fun k => (lists k).trans (congrArg (d.onList k) (h.lists k))
    failures := failures.trans (congrArg d.onFailures h.failures)
    right := fun _ _ _ eq => h.right_cons right _ _ _ eq
    stories := h.stories_of_pop there (told ▸ story) fun j other =>
      ⟨others j other, deedsOf_record_other _ fun same =>
        other (Option.some.inj (owner.symm.trans same))⟩
    listening := fun j n eq => by
      have listens : (s.setPop i state none).listening j = some n := eq
      show n ≤ m'.pushes
      rw [pushes]
      exact h.le_of_listening (fun _ none => by cases none) listens
    watched := fun j k q n eq seen => by
      have other : i ≠ j := fun same => by
        subst same
        cases there.symm.trans eq
        cases story
      obtain ⟨behind, beside⟩ := h.watched j k q n ((others j other).symm.trans eq) seen
      rw [← pushes] at behind beside
      refine ⟨behind, fun last => (lists k).trans ?_⟩
      rw [beside last, Deed.onList_nil owner] }

/-- A pop registers, or goes on waiting. -/
theorem stay (h : Tracked m s) {q : Pop} {listening : Option Nat}
    (here : s.waiters.pops[i]? = some ⟨key, .active p⟩) (deadline : q.deadline = p.deadline)
    (listens : ∀ n, listening = some n → n ≤ s.memory.pushes)
    (watched : ∀ n, q.seen = some n →
      n ≤ s.memory.pushes ∧ (n = s.memory.pushes → s.list key = [])) :
    Tracked m (s.setPop i (.active q) listening) := by
  have there := pops_setPop_self (.active q) listening here
  have others (j : Nat) (other : i ≠ j) :=
    pops_setPop_other (s := s) (.active q) listening other
  have story : Story i (some ⟨key, .active q⟩) (s.deedsOf i) := by
    rw [h.deedsOf_active here, ← deadline]
    exact .active key q
  exact {
    lists := h.lists
    failures := h.failures
    right := h.right
    stories := h.stories_of_pop there story fun j other => ⟨others j other, rfl⟩
    listening := fun j n eq => h.le_of_listening listens eq
    watched := fun j k r n eq seen => by
      by_cases same : i = j
      · subst same
        rw [there] at eq
        cases eq
        exact watched n seen
      · exact h.watched j k r n ((others j same).symm.trans eq) seen }

/-- A call that does not wait, or failures that are to come. -/
theorem setMemory (h : Tracked m s) (free : d.pop? = none)
    (lists : ∀ k, m'.contents.list k = d.onList k (s.list k))
    (failures : m'.faults .blpop = d.onFailures (s.memory.faults .blpop))
    (pushes : s.memory.pushes ≤ m'.pushes)
    (announced : m'.pushes = s.memory.pushes → ∀ k, m'.contents.list k = s.list k)
    (right : d.Right m s.deeds) :
    Tracked m ((s.setMemory m').record d) where
  lists k := (lists k).trans (congrArg (d.onList k) (h.lists k))
  failures := failures.trans (congrArg d.onFailures h.failures)
  right _ _ _ eq := h.right_cons right _ _ _ eq
  stories j := by
    rw [deedsOf_record_other _ fun own => Option.some_ne_none j (own.symm.trans free)]
    exact h.stories j
  listening j n eq := Nat.le_trans (h.listening j n eq) pushes
  watched j k q n there seen := by
    obtain ⟨behind, beside⟩ := h.watched j k q n there seen
    refine ⟨Nat.le_trans behind pushes, fun last => ?_⟩
    have same : m'.pushes = s.memory.pushes := Nat.le_antisymm (last ▸ behind) pushes
    exact (announced same k).trans (beside (last.trans same))

theorem start (h : Tracked m s) (key : String) (timeout : Span) :
    Tracked m ({ s with waiters := s.waiters.start key timeout }.record
      (.asked s.waiters.pops.length key (Clock.after? s.waiters.now timeout))) := by
  have new : s.deedsOf s.waiters.pops.length = [] :=
    (List.getElem?_eq_none (Nat.le_refl _) ▸ h.stories s.waiters.pops.length).of_absent
  have told : ({ s with waiters := s.waiters.start key timeout }.record
      (.asked s.waiters.pops.length key (Clock.after? s.waiters.now timeout))).deedsOf
        s.waiters.pops.length =
      [.asked s.waiters.pops.length key (Clock.after? s.waiters.now timeout)] :=
    (deedsOf_record_self _ rfl).trans (congrArg _ new)
  exact {
    lists := h.lists
    failures := h.failures
    right := fun _ _ _ eq => h.right_cons (d := .asked _ key _) trivial _ _ _ eq
    stories := by
      refine h.stories_of_pop List.getElem?_concat_length ?_ fun j other =>
        ⟨getElem?_concat_other other _, deedsOf_record_other _ fun same =>
          other (Option.some.inj same)⟩
      rw [told]
      cases Clock.after? s.waiters.now timeout with
      | none => exact .panicked key
      | some deadline => exact .active key { deadline }
    listening := h.listening
    watched := fun j k q n eq seen => by
      rcases getElem?_concat_cases eq with ⟨-, here⟩ | before
      · cases fits : Clock.after? s.waiters.now timeout with
        | none =>
            rw [fits] at here
            cases here
        | some deadline =>
            rw [fits] at here
            cases here
            cases seen
      · exact h.watched j k q n before seen }

theorem look (h : Tracked m s) (step : s.perform (.look i) = some s') : Tracked m s' := by
  simp only [Traffic.perform] at step
  split at step
  · next key p n here registered =>
      split at step
      · next e m' looked =>
          cases step
          obtain ⟨n, left, rfl, rfl⟩ := Memory.guarded_injected looked
          have failures : n = s.memory.faults .blpop - 1 := by omega
          have armed : Deed.failuresAfter (m.faults .blpop) s.deeds ≠ 0 := by
            rw [← h.failures]
            omega
          exact h.finish here rfl (fun _ => rfl) failures rfl armed (.failed ..)
      · next value m' looked =>
          cases step
          obtain ⟨rest, filled, rfl⟩ := Memory.look_some looked
          have lists (k : String) : (s.memory.contents.setList key rest).list k =
              (Deed.took i key value).onList k (s.list k) := by
            rw [Contents.list_setList, Deed.onList]
            by_cases same : key = k
            · rw [if_pos same.symm, if_pos same, ← same, Traffic.list, filled, List.tail_cons]
            · rw [if_neg (Ne.symm same), if_neg same, Traffic.list]
          exact h.finish here rfl lists rfl rfl ⟨rest, (h.lists key).symm.trans filled⟩ (.took ..)
      · next m' looked =>
          cases step
          obtain ⟨empty, rfl⟩ := Memory.look_none looked
          refine h.stay here rfl (fun _ none => by cases none) fun k seen => ?_
          cases seen
          exact ⟨h.listening i n registered, fun _ => empty⟩
  · cases step

theorem perform (h : Tracked m s) {move : Move} (step : s.perform move = some s') :
    Tracked m s' := by
  cases move with
  | start key timeout =>
      cases step
      exact h.start key timeout
  | listen i =>
      simp only [Traffic.perform] at step
      repeat' split at step
      all_goals cases step
      next p here idle due =>
        refine h.stay here rfl (fun n eq => ?_) (h.watched i _ p · here)
        cases eq
        exact Nat.le_refl _
  | look i => exact h.look step
  | giveUp i =>
      simp only [Traffic.perform] at step
      repeat' split at step
      all_goals cases step
      next key p here idle due =>
        rw [Bool.and_eq_true, Bool.not_eq_true', Pop.isDue, decide_eq_false_iff_not, Decidable.not_not,
          decide_eq_true_eq] at due
        have empty : s.list key = [] := (h.watched i key p _ here due.1).2 rfl
        refine h.finish here rfl (fun _ => rfl) rfl rfl ?_ (.gaveUp key _ _ due.2)
        have asked : Deed.asked i key (some p.deadline) ∈ s.deedsOf i := by
          rw [h.deedsOf_active here]
          exact List.mem_singleton_self _
        exact ⟨key, p.deadline, (List.mem_filter.mp asked).1, due.2,
          (h.lists key).symm.trans empty⟩
  | drop i =>
      simp only [Traffic.perform] at step
      repeat' split at step
      all_goals cases step
      next key p here =>
        exact h.finish here rfl (fun _ => rfl) rfl rfl trivial (.dropped ..)
  | call call =>
      simp only [Traffic.perform] at step
      repeat' split at step
      all_goals cases step
      all_goals
        next ran =>
          have ran := Memory.ran_immediate ran
          exact h.setMemory rfl ran.lists ran.failures ran.pushes ran.announced trivial
  | failNext point count =>
      cases step
      refine h.setMemory rfl (fun _ => rfl) ?_ (Nat.le_refl _) (fun _ _ => rfl) trivial
      simp only [Memory.faults_failNext, Deed.onFailures, eq_comm]
  | elapse t =>
      cases step
      exact { h with }

theorem run (h : Tracked m s) {moves : List Move} (runs : s.run moves = some s') :
    Tracked m s' := by
  induction moves generalizing s with
  | nil =>
      cases runs
      exact h
  | cons move rest ih =>
      obtain ⟨next, step, rest⟩ := Option.bind_eq_some_iff.mp runs
      exact ih (h.perform step) rest

/-- A pop that cannot go on has looked since the last push, and is early. -/
theorem of_idle (h : Tracked m s) (here : s.waiters.pops[i]? = some ⟨key, .active p⟩)
    (listen : s.perform (.listen i) = none) (look : s.perform (.look i) = none)
    (giveUp : s.perform (.giveUp i) = none) : s.list key = [] ∧ s.waiters.now < p.deadline := by
  have silent : s.listening i = none := by
    cases registered : s.listening i with
    | none => rfl
    | some n =>
        simp only [Traffic.perform, here, registered] at look
        split at look <;> cases look
  have seen : p.seen = some s.memory.pushes := by
    simpa [Traffic.perform, here, silent, Pop.isDue] using listen
  have early : s.waiters.now < p.deadline := by
    simpa [Traffic.perform, here, silent, Pop.isDue, seen] using giveUp
  exact ⟨(h.watched i key p _ here seen).2 rfl, early⟩

end Tracked

/-- Pops among other calls on a store that held `m` at first. -/
structure Orderly (m : Memory) (s : Traffic) : Prop where
  /-- The lists hold what the values added and taken have made of them, in their order. -/
  lists : ∀ key, s.list key = Deed.listAfter key (m.contents.list key) s.deeds
  /-- A value is taken as often as it was there or was added, less what is there still. -/
  values : ∀ key v,
    (s.list key).count v + (s.deeds.flatMap (Deed.takes key)).count v =
      (m.contents.list key).count v + (s.deeds.flatMap (Deed.adds key)).count v
  right : ∀ later d past, s.deeds = later ++ d :: past → d.Right m past
  stories : ∀ i : Nat, Story i s.waiters.pops[i]? (s.deedsOf i)
  /-- Of the failures for pops, one is used up by each pop that failed. -/
  failures : s.memory.faults .blpop = Deed.failuresAfter (m.faults .blpop) s.deeds
  /-- Where no pop can go on as long as the clock stands, each waits beside an empty list. -/
  idle : (∀ i, s.perform (.listen i) = none ∧ s.perform (.look i) = none ∧
      s.perform (.giveUp i) = none) →
    ∀ (i : Nat) key p, s.waiters.pops[i]? = some ⟨key, .active p⟩ →
      s.list key = [] ∧ s.waiters.now < p.deadline

/-- Whatever comes in which order, no value is lost, given out twice or out of turn; a pop returns
without one only at its deadline and beside an empty list; and no push goes unnoticed. -/
theorem orderly_of_run {now : Instant} {moves : List Move}
    (runs : (begin now m).run moves = some s) : Orderly m s := by
  have tracked := (Tracked.begin now m).run runs
  exact {
    lists := tracked.lists
    values := fun key v => tracked.lists key ▸ Deed.count_listAfter tracked.right key v
    right := tracked.right
    stories := tracked.stories
    failures := tracked.failures
    idle := fun idle i key p here =>
      tracked.of_idle here (idle i).1 (idle i).2.1 (idle i).2.2 }

/-- Of four pops one gives up though it was woken, one gets a value that came between its
registration and its look, one fails and one is dropped. -/
def crossing : List Move :=
  [.start "a" (.ofSeconds 1), .start "a" (.ofSeconds 2), .start "b" (.ofSeconds 2),
    .start "a" (.ofSeconds 2), .listen 0, .listen 1, .listen 2, .look 0, .look 2,
    .call (.lpush "a" "x"), .look 1, .listen 0, .look 0, .drop 3,
    .elapse (Span.ofSeconds 1).nanos, .giveUp 0, .failNext .blpop 2, .listen 2,
    .call (.exec (Batch.empty.rpush "b" ["y", "z"])), .look 2]

def crossed : Traffic := ((begin 0 {}).run crossing).get (by decide +kernel)

theorem orderly_crossed :
    Orderly {} crossed ∧
    crossed.deeds.filterMap Deed.pop? = [2, 0, 3, 1, 3, 2, 1, 0] ∧
    crossed.deeds.flatMap (Deed.takes "a") = ["x"] ∧ crossed.list "b" = ["y", "z"] ∧
    crossed.memory.faults .blpop = 1 :=
  ⟨orderly_of_run (show (begin 0 {}).run crossing = some crossed from (Option.some_get _).symm),
    by decide +kernel, by decide +kernel, by decide +kernel, by decide +kernel⟩

end Traffic

end ReliableQueue.Store
