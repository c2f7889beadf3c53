import ReliableQueue.Proofs.Queue.Bystanders
import ReliableQueue.Proofs.Queue.Faults

/-!
The rollback of a failed claim. A fetcher that cannot load the payload of the task that it has
popped, or cannot claim it, puts the task back where it was, in at most four steps. So as long as
nobody else takes tasks or gives them back, the store holds what it held before, but for what was
pushed and settled in the meantime, however often that happens.
-/

namespace ReliableQueue.Queue

open Store (Contents)

variable {k : Keys} {name x : String} {a : Act} {es : List Event} {first m m' : Contents}
  {f : Fetcher} {claim : Claim}

/-! ### Before the first claim -/

/-- Whether an event claims a task or passes it on to the workers. -/
def Event.passesOn : Event → Bool
  | claimed _ | sent _ => true
  | _ => false

def Unclaimed (es : List Event) : Prop := ∀ e ∈ es, e.passesOn = false

instance (es : List Event) : Decidable (Unclaimed es) :=
  inferInstanceAs (Decidable (∀ e ∈ es, e.passesOn = false))

theorem unclaimed_of_outside (h : Outside es) : Unclaimed es := by
  intro e he
  have out := h e he
  cases e <;> first | rfl | cases out

theorem Unclaimed.append {es' : List Event} (h : Unclaimed es) (h' : Unclaimed es') :
    Unclaimed (es ++ es') :=
  List.forall_mem_append.mpr ⟨h, h'⟩

/-- The payload of a claim was looked up, and it is what was stored then. -/
def LookedUp (k : Keys) (first : Contents) (claim : Claim) (es : List Event) : Prop :=
  ∃ since before, es = since ++ .loaded claim :: before ∧ Outside since ∧
    claim.payload = ((replay k first before).field? k.payloads claim.id).getD []

theorem LookedUp.outside {es' : List Event} (h : LookedUp k first claim es)
    (outside : Outside es') : LookedUp k first claim (es' ++ es) := by
  obtain ⟨since, before, rfl, out, payload⟩ := h
  exact ⟨es' ++ since, before, (List.append_assoc _ _ _).symm, outside.append out, payload⟩

/-- The first task claimed is `x`, with the payload that was stored for it. -/
def FirstClaimed (k : Keys) (first : Contents) (x : String) (es : List Event) : Prop :=
  ∃ later claim earlier, es = later ++ .claimed claim :: earlier ∧ Unclaimed earlier ∧
    claim.id = x ∧ LookedUp k first claim earlier

theorem FirstClaimed.append (h : FirstClaimed k first x es) (es' : List Event) :
    FirstClaimed k first x (es' ++ es) := by
  obtain ⟨later, claim, earlier, rfl, rest⟩ := h
  exact ⟨es' ++ later, claim, earlier, (List.append_assoc _ _ _).symm, rest⟩

theorem Fetcher.eq_stamping {id : String} (loaded : f.loaded? = some claim)
    (unclaimed : f.unclaimed? = some id) : f = .stamping claim := by
  cases f with
  | stamping =>
      cases loaded
      rfl
  | offering | sending | releasing => cases unclaimed
  | _ => cases loaded

theorem FirstClaimed.not_unclaimed (h : FirstClaimed k first x es) : ¬ Unclaimed es := by
  obtain ⟨later, claim, earlier, rfl, -⟩ := h
  intro unclaimed
  cases unclaimed (.claimed claim) (by simp)

/-- Fetcher `f` has claimed nothing, and what is in the store, but for the task in its hand, is
what it would be if the fetcher had never taken any. -/
structure Rolling (k : Keys) (first : Contents) (x : String) (f : Fetcher) (m : Contents)
    (es : List Event) : Prop where
  leads : Leads k first es m
  unclaimed : Unclaimed es
  hand : (f.held? = none ∧ m = replay k first es) ∨
    (f.unclaimed? = some x ∧ m.apply (.lpush k.pending x) = replay k first es)
  looked : ∀ claim, f = .stamping claim → LookedUp k first claim es

namespace Rolling

theorem outside {es' : List Event} (h : Rolling k first x f m es) (effect : Leads k m es' m')
    (outside : Outside es') : Rolling k first x f m' (es' ++ es) where
  leads := effect.append h.leads
  unclaimed := (unclaimed_of_outside outside).append h.unclaimed
  hand := by
    have same := effect.eq_replay outside
    rw [replay_append]
    refine h.hand.imp (fun ⟨free, contents⟩ => ⟨free, contents ▸ same⟩)
      (fun ⟨held, contents⟩ => ⟨held, ?_⟩)
    rw [← contents, effect.replay_lpush, same]
  looked claim stamping := (h.looked claim stamping).outside outside

theorem contents_of_free (h : Rolling k first x f m es) (free : f.held? = none) :
    m = replay k first es := by
  rcases h.hand with ⟨-, contents⟩ | ⟨held, -⟩
  · exact contents
  · rw [(Fetcher.hand_of_free free).1] at held
    cases held

/-- The task that the fetcher takes is always `x`. -/
theorem eq_of_head {id : String} {rest rest' : List String} (h : Rolling k first x f m es)
    (backlog : first.list k.pending = x :: rest) (free : f.held? = none)
    (head : m.list k.pending = id :: rest') : id = x := by
  rw [h.contents_of_free free, h.leads.pending_replay, backlog] at head
  exact (List.cons.inj head).1.symm

theorem hand_of_held {y : String} (h : Rolling k first x f m es) (held : f.held? = some y) :
    f.unclaimed? = some x ∧ m.apply (.lpush k.pending x) = replay k first es := by
  rcases h.hand with ⟨free, -⟩ | hand
  · rw [free] at held
    cases held
  · exact hand

theorem kept {g : Fetcher} (h : Rolling k first x f m es) (held : g.held? = f.held?)
    (unclaimed : g.unclaimed? = f.unclaimed?) (loaded : g.loaded? = f.loaded? ∨ g.loaded? = none) :
    Rolling k first x g m es where
  leads := h.leads
  unclaimed := h.unclaimed
  hand := by rw [held, unclaimed]; exact h.hand
  looked := by
    rintro claim rfl
    refine h.looked claim (Fetcher.eq_stamping ?_ unclaimed.symm)
    rcases loaded with same | none
    · exact same.symm
    · cases none

/-- A step of the fetcher puts back what it has taken, or claims it. -/
theorem move {sh : Shared} {n : Moved Fetcher} {rest : List String}
    (h : Rolling k first x f sh.memory.contents es) (step : Fetcher.Move k sh f n)
    (backlog : first.list k.pending = x :: rest) (works : sh.memory.faults .lpush = 0) :
    Rolling k first x n.loop n.shared.memory.contents (n.events.reverse ++ es) ∨
      FirstClaimed k first x (n.events.reverse ++ es) := by
  have leads := step.leads.append h.leads
  cases step with
  | quiet held contents channel events unclaimed claimed loaded =>
      have quiet : Quiet n.events.reverse := fun e he => events e (List.mem_reverse.mp he)
      exact .inl ((h.outside (contents ▸ .of_quiet quiet) (outside_of_quiet quiet)).kept held
        unclaimed loaded)
  | popped id rest' free held head contents channel events loop =>
      obtain rfl := h.eq_of_head backlog free head
      rw [events, loop, contents]
      refine .inl ⟨by rwa [events, contents] at leads, ?_, .inr ⟨rfl, ?_⟩, by rintro _ ⟨⟩⟩
      · exact List.forall_mem_cons.mpr ⟨rfl, h.unclaimed⟩
      · rw [Contents.apply, Contents.list_setList_self, Contents.setList_setList,
          Contents.setList_of_list head]
        exact h.contents_of_free free
  | loaded claim was loop payload contents channel events =>
      subst was
      obtain ⟨hand, before⟩ := h.hand_of_held rfl
      rw [events, loop, contents]
      refine .inl ⟨by rwa [events, contents] at leads, ?_, .inr ⟨hand, before⟩, ?_⟩
      · exact List.forall_mem_cons.mpr ⟨rfl, h.unclaimed⟩
      · rintro _ ⟨⟩
        refine ⟨[], es, rfl, by simp [Outside], ?_⟩
        rw [payload, ← before]
        rfl
  | claimed claim stamp had held contents channel events was loop =>
      have looked := h.looked claim was
      subst was
      obtain ⟨hand, -⟩ := h.hand_of_held rfl
      rw [events]
      exact .inr ⟨[], claim, es, rfl, h.unclaimed, Option.some.inj hand, looked⟩
  | requeued id notes had free contents channel events quiet was =>
      -- The notes of the failure come after the task is back, so they are as good as from outside.
      obtain ⟨hand, before⟩ := h.hand_of_held had
      obtain rfl := Option.some.inj (was.symm.trans hand)
      have still : Quiet notes.reverse := fun e he => quiet e (List.mem_reverse.mp he)
      have back : Rolling k first id n.loop n.shared.memory.contents (.requeued id :: es) := by
        refine ⟨.cons h.leads contents, ?_, .inl ⟨free, contents.trans before⟩, ?_⟩
        · exact List.forall_mem_cons.mpr ⟨rfl, h.unclaimed⟩
        · intro claim stamping
          rw [stamping] at free
          cases free
      rw [events, List.reverse_cons, List.append_assoc]
      exact .inl (back.outside (.of_quiet still) (outside_of_quiet still))
  | requeueFailed id cause notes had free fault => exact absurd works fault
  | sent claim had free contents channel events was room opened =>
      have hand := (h.hand_of_held had).1
      rw [was] at hand
      cases hand
  | released id had free contents channel events was
  | releaseFailed id cause had free fault contents channel events was =>
      have hand := (h.hand_of_held had).1
      obtain ⟨claim, rfl, -⟩ := was
      cases hand

end Rolling

/-- The steps, at most, until a task that was taken is claimed or put back. -/
def Fetcher.remaining : Fetcher → Nat
  | .holding _ => 4
  | .loading _ => 3
  | .stamping _ => 2
  | .returning _ | .undoing .. => 1
  | _ => 0

/-- Nothing holds a fetcher up that has taken a task and not claimed it. -/
theorem Fetcher.step_of_unclaimed (s : Setting) (sh : Shared) (hand : f.unclaimed? = some x) :
    ∃ m, f.step s sh = some m ∧ m.loop.remaining < f.remaining := by
  cases f with
  | holding id =>
      cases cancelled : s.isCancelled sh with
      | true => exact ⟨_, if_pos cancelled, (by decide : 1 < 4)⟩
      | false => exact ⟨_, if_neg (Bool.eq_false_iff.mp cancelled), (by decide : 3 < 4)⟩
  | returning id | undoing id cause => exact ⟨_, rfl, Nat.one_pos⟩
  | loading id =>
      simp only [step]
      split
      · exact ⟨_, rfl, (by decide : 1 < 3)⟩
      · exact ⟨_, rfl, (by decide : 2 < 3)⟩
  | stamping claim =>
      simp only [step]
      split
      · exact ⟨_, rfl, (by decide : 1 < 2)⟩
      · exact ⟨_, rfl, (by decide : 0 < 2)⟩
  | _ => cases hand

theorem Fetcher.remaining_le (f : Fetcher) : f.remaining ≤ 4 := by
  cases f <;> simp [remaining]

namespace Cluster

variable {c d : Cluster} {i : Nat}

/-! ### Steps and runs -/

theorem run_of_remaining {r : Run} {hd : Handle} {most : Nat} (at_i : c.runs[i]? = some r)
    (handle : c.handles[r.handle]? = some hd) (few : r.fetcher.remaining ≤ most) :
    ∃ n ≤ most, ∃ d r', c.run (List.replicate n (.step (.fetcher i))) = some d ∧
      d.runs[i]? = some r' ∧ r'.fetcher.unclaimed? = none := by
  induction most generalizing c r with
  | zero =>
      refine ⟨0, Nat.le_refl 0, c, r, rfl, at_i, Option.eq_none_iff_forall_ne_some.mpr ?_⟩
      intro x hand
      obtain ⟨m, -, less⟩ := Fetcher.step_of_unclaimed (c.setting hd r) (c.shared r) hand
      omega
  | succ most ih =>
      cases hand : r.fetcher.unclaimed? with
      | none => exact ⟨0, Nat.zero_le _, c, r, rfl, at_i, hand⟩
      | some x =>
          obtain ⟨m, step, less⟩ := Fetcher.step_of_unclaimed (c.setting hd r) (c.shared r) hand
          let after : Run := { r with fetcher := m.loop, channel := m.shared.channel }
          let next := c.settle i { r with fetcher := m.loop } m.shared m.events
          have takes : c.perform (.step (.fetcher i)) = some next := by
            show c.stepFetcher i = some next
            simp only [stepFetcher, at_i, handle, step, Option.bind_eq_bind, Option.bind_some,
              Option.pure_def]
            rfl
          have bound := (List.getElem?_eq_some_iff.mp at_i).1
          have now : next.runs[i]? = some after.reap.1 := List.getElem?_set_self bound
          have few' : m.loop.remaining ≤ most := Nat.le_of_lt_succ (Nat.lt_of_lt_of_le less few)
          obtain ⟨n, least, d, r', runs, at_i', none⟩ :=
            ih now (by rw [Run.reap_handle]; exact handle) (by rw [Run.reap_fetcher]; exact few')
          refine ⟨n + 1, Nat.succ_le_succ least, d, r', ?_, at_i', none⟩
          rw [List.replicate_succ, run, takes]
          exact runs

/-- A fetcher that has taken a task goes on until it has claimed it or tried to put it back, and
nobody has to do anything for it. -/
theorem claims_or_returns {r : Run} {hd : Handle} (at_i : c.runs[i]? = some r)
    (handle : c.handles[r.handle]? = some hd) :
    ∃ n ≤ 4, ∃ d r', c.run (List.replicate n (.step (.fetcher i))) = some d ∧
      d.runs[i]? = some r' ∧ r'.fetcher.unclaimed? = none :=
  run_of_remaining at_i handle r.fetcher.remaining_le

theorem rolling_fetcher {r : Run} {rest : List String} (named : c.Named name)
    (at_i : c.runs[i]? = some r) (works : c.memory.faults .lpush = 0)
    (backlog : first.list (Keys.ofName name).pending = x :: rest)
    (rolling : Rolling (.ofName name) first x r.fetcher c.memory.contents es)
    (h : c.stepFetcher i = some d) :
    ∃ grown, d.events = grown ++ c.events ∧
      ((∃ r', d.runs[i]? = some r' ∧
          Rolling (.ofName name) first x r'.fetcher d.memory.contents (grown ++ es)) ∨
        FirstClaimed (.ofName name) first x (grown ++ es)) := by
  obtain ⟨r, hd, m, at_i', hh, step, rfl⟩ := stepFetcher_cases h
  cases at_i.symm.trans at_i'
  obtain ⟨bound, -⟩ := List.getElem?_eq_some_iff.mp at_i
  have moved := rolling.move (Fetcher.move_of_step (named.keys hh) step) backlog works
  let after : Run := { r with fetcher := m.loop, channel := m.shared.channel }
  refine ⟨_, events_settle _ _ _ _ _, ?_⟩
  rw [List.append_assoc]
  rcases moved with still | once
  · refine .inl ⟨after.reap.1, List.getElem?_set_self bound, ?_⟩
    rw [Run.reap_fetcher]
    exact still.outside (leads_reap after _) (outside_reap after)
  · exact .inr (once.append _)

theorem rolling_beside {r : Run} (named : c.Named name) (at_i : c.runs[i]? = some r)
    (rolling : Rolling (.ofName name) first x r.fetcher c.memory.contents es)
    (beside : Beside c d) (h : c.perform a = some d) :
    ∃ grown, d.events = grown ++ c.events ∧ ∃ r', d.runs[i]? = some r' ∧
      Rolling (.ofName name) first x r'.fetcher d.memory.contents (grown ++ es) := by
  obtain ⟨r', at_i', same⟩ := beside.fetchers i r at_i
  obtain ⟨grown, events, outside⟩ := beside.events
  obtain ⟨grown', events', leads⟩ := leads_of_change (change_of_perform named h)
  obtain rfl := List.append_cancel_right (events.symm.trans events')
  refine ⟨grown, events, r', at_i', ?_⟩
  rw [same]
  exact rolling.outside leads outside

/-- What has come of a backlog with `x` at its head, where fetcher `f` has not claimed anything:
if it has nothing in hand, the store is as if it had never taken anything, and what it has in
hand is `x`, which is all that the store lacks. -/
structure RolledBack (k : Keys) (first : Contents) (x : String) (f : Fetcher) (m : Contents)
    (es : List Event) : Prop where
  unclaimed : Unclaimed es
  free : f.held? = none → m = replay k first es
  held : ∀ y, f.held? = some y → y = x ∧ m.apply (.lpush k.pending x) = replay k first es

theorem rolledBack_of_rolling {f : Fetcher} (h : Rolling k first x f m es) :
    RolledBack k first x f m es where
  unclaimed := h.unclaimed
  free := h.contents_of_free
  held y held := by
    obtain ⟨hand, back⟩ := h.hand_of_held held
    rw [Fetcher.held?_eq, hand] at held
    exact ⟨(Option.some.inj held).symm, back⟩

/-- However often reads of the backlog, lookups and claims fail, a fetcher whose tasks nobody
disputes puts back what it cannot claim, and what it claims first is the task that was at the
head of the backlog, with the payload stored for it. -/
theorem rolledBack_of_reaches {r : Run} {rest : List String} (named : c.Named name)
    (at_i : c.runs[i]? = some r) (free : r.fetcher.held? = none)
    (works : c.memory.faults .lpush = 0) (backlog : c.pending name = x :: rest)
    (h : Reaches (Undisputed name i) c d) :
    ∃ es, d.events = es ++ c.events ∧
      ((∃ r', d.runs[i]? = some r' ∧
          RolledBack (.ofName name) c.memory.contents x r'.fetcher d.memory.contents es) ∨
        FirstClaimed (.ofName name) c.memory.contents x es) := by
  suffices all : d.Named name ∧ d.memory.faults .lpush = 0 ∧ ∃ es, d.events = es ++ c.events ∧
      ((∃ r', d.runs[i]? = some r' ∧
          Rolling (.ofName name) c.memory.contents x r'.fetcher d.memory.contents es) ∨
        FirstClaimed (.ofName name) c.memory.contents x es) by
    obtain ⟨-, -, es, events, kept⟩ := all
    exact ⟨es, events,
      kept.imp_left fun ⟨r', at_i, rolling⟩ => ⟨r', at_i, rolledBack_of_rolling rolling⟩⟩
  induction h with
  | refl =>
      refine ⟨named, works, [], rfl, .inl ⟨r, at_i, .nil, by simp [Unclaimed],
        .inl ⟨free, rfl⟩, fun claim stamping => ?_⟩⟩
      rw [stamping] at free
      cases free
  | @perform d e a _ ok h ih =>
      obtain ⟨named, works, es, events, kept⟩ := ih
      have still : e.memory.faults .lpush = 0 := by
        rcases faults_perform (p := .lpush) h with less | ⟨count, rfl⟩
        · exact Nat.le_zero.mp (works ▸ less)
        · cases h
          obtain rfl : count = 0 := ok rfl
          exact Store.Memory.faults_failNext _ _ _ _
      refine ⟨named.perform (onQueue_of_undisputed d a ok) h, still, ?_⟩
      rcases kept with ⟨r', at_i, rolling⟩ | once
      · rcases beside_perform ok h with rfl | beside
        · obtain ⟨grown, more, after⟩ := rolling_fetcher named at_i works backlog rolling h
          exact ⟨grown ++ es, by rw [more, events, List.append_assoc], after⟩
        · obtain ⟨grown, more, after⟩ := rolling_beside named at_i rolling beside h
          exact ⟨grown ++ es, by rw [more, events, List.append_assoc], .inl after⟩
      · obtain ⟨grown, more⟩ := (change_of_perform named h).events_grow
        exact ⟨grown ++ es, by rw [more, events, List.append_assoc], .inr (once.append grown)⟩

/-- Two tasks are pushed and the queue is started; the fetcher is about to look for a task. -/
def filling : List Act :=
  [.build "q" {}, .newToken, .invoke 0 (.push [⟨"x", [1]⟩, ⟨"y", [2]⟩]), .step (.call 0),
    .invoke 0 (.start ⟨[0]⟩), .step (.call 1), .step (.fetcher 0)]

def filled : Cluster := ((empty 0).run filling).get (by decide +kernel)

/-- A read of the backlog, a lookup and a claim fail, in that order; another task is pushed before
the task whose lookup failed is put back. -/
def thwarting : List Act :=
  let steps n := List.replicate n (Act.step (.fetcher 0))
  [.failNext .blpop 1, .failNext .hget 1, .failNext .zadd 1] ++ steps 2 ++
    [.elapse 1000000000] ++ steps 5 ++ [.invoke 0 (.push [⟨"z", [3]⟩]), .step (.call 2)] ++
    steps 1 ++ [.elapse 2000000000] ++ steps 7

def thwarted : Cluster := (filled.runIf (Undisputed "q" 0) thwarting).get (by decide +kernel)

theorem run_thwarting : filled.runIf (Undisputed "q" 0) thwarting = some thwarted :=
  (Option.some_get _).symm

/-- The pause is over, and the next attempt goes through. -/
def relenting : List Act :=
  thwarting ++ .elapse 3000000000 :: List.replicate 6 (.step (.fetcher 0))

def relented : Cluster := (filled.runIf (Undisputed "q" 0) relenting).get (by decide +kernel)

theorem run_relenting : filled.runIf (Undisputed "q" 0) relenting = some relented :=
  (Option.some_get _).symm

theorem rolledBack_thwarted :
    (∃ es, thwarted.events = es ++ filled.events ∧ ∃ r', thwarted.runs[0]? = some r' ∧
      RolledBack (.ofName "q") filled.memory.contents "x" r'.fetcher thwarted.memory.contents es) ∧
    ∃ es, relented.events = es ++ filled.events ∧
      FirstClaimed (.ofName "q") filled.memory.contents "x" es := by
  have named : filled.Named "q" := by
    show ∀ h ∈ filled.handles, h.name = "q"
    decide +kernel
  have started : (filled.runs[0]?).map Run.fetcher = some .checking := by decide +kernel
  obtain ⟨r, at_0, checking⟩ := Option.map_eq_some_iff.mp started
  have free : r.fetcher.held? = none := checking ▸ rfl
  have works : filled.memory.faults .lpush = 0 := by decide +kernel
  have backlog : filled.pending "q" = ["x", "y"] := by decide +kernel
  constructor
  · obtain ⟨es, events, ⟨r', at_0, back⟩ | claimed⟩ :=
      rolledBack_of_reaches named at_0 free works backlog (.of_runIf run_thwarting)
    · exact ⟨es, events, r', at_0, back⟩
    · have none : Unclaimed thwarted.events := by decide +kernel
      rw [events] at none
      exact absurd (fun e he => none e (List.mem_append_left _ he)) claimed.not_unclaimed
  · obtain ⟨es, events, ⟨r', at_0, back⟩ | claimed⟩ :=
      rolledBack_of_reaches named at_0 free works backlog (.of_runIf run_relenting)
    · have one : ¬ Unclaimed relented.events := by decide +kernel
      have none : Unclaimed filled.events := by decide +kernel
      rw [events] at one
      exact absurd (back.unclaimed.append none) one
    · exact ⟨es, events, claimed⟩

end Cluster

end ReliableQueue.Queue
