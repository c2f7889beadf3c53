import ReliableQueue.Proofs.Queue.Moments

/-!
The end of a run. A loop looks whether its run is cancelled and then turns to the channel, and the
run may be cancelled in between. So after a cancellation a worker that had looked receives at most
one task, a fetcher that had looked sends at most the one in its hand, and no other loop touches the
channel.
-/

namespace ReliableQueue.Queue

variable {k n : Nat} {a : Act} {c d : Cluster} {q r r' : Run} {s : Setting} {sh : Shared}

/-- The task that was received. -/
def Event.received? : Event → Option Claim
  | received claim => some claim
  | _ => none

/-- The task that was sent. -/
def Event.sent? : Event → Option Claim
  | sent claim => some claim
  | _ => none

/-- Where no task changes its place, none is received and none is sent. -/
theorem Quiet.untouched {es : List Event} (quiet : Quiet es) :
    es.filterMap Event.received? = [] ∧ es.filterMap Event.sent? = [] := by
  constructor
  all_goals
    refine List.filterMap_eq_nil_iff.mpr fun e he => ?_
    have still := quiet e he
    cases e <;> first | rfl | cases still

/-! ### Loops of a cancelled run -/

/-- A fetcher that had looked sends the task in its hand, or no task is sent. -/
theorem Fetcher.Move.sent_or {keys : Keys} {f : Fetcher} {m : Moved Fetcher}
    (move : Fetcher.Move keys sh f m) :
    (∃ claim, f = .sending claim ∧ m.loop.held? = none ∧
      m.shared.channel = sh.channel.send claim ∧ m.events = [.sent claim]) ∨
    m.shared.channel = sh.channel ∧ m.events.filterMap Event.sent? = [] := by
  cases move with
  | sent claim _ free _ channel events was => exact .inl ⟨claim, was, free, channel, events⟩
  | quiet _ _ channel events => exact .inr ⟨channel, events.untouched.2⟩
  | requeued _ _ _ _ _ channel events quiet | requeueFailed _ _ _ _ _ _ _ channel events quiet =>
      exact .inr ⟨channel, by rw [events]; exact quiet.untouched.2⟩
  | popped _ _ _ _ _ _ channel events | loaded _ _ _ _ _ channel events
  | claimed _ _ _ _ _ channel events | released _ _ _ _ channel events
  | releaseFailed _ _ _ _ _ _ channel events => exact .inr ⟨channel, by rw [events]; rfl⟩

/-- A fetcher whose run is cancelled does not turn to the channel any more. -/
theorem Fetcher.not_sending_of_step {f : Fetcher} {m : Moved Fetcher} (h : f.step s sh = some m)
    (cancelled : s.isCancelled sh = true) (claim : Claim) : m.loop ≠ .sending claim := by
  rintro sending
  cases f with
  | offering =>
      simp only [step, cancelled, if_true] at h
      cases h
      cases sending
  | starting | returning | undoing | releasing | stopping =>
      cases h
      cases sending
  | stopped | panicked => cases h
  | checking | popping | holding | loading | stamping | sending | pausing =>
      simp only [step] at h
      repeat' split at h
      all_goals
        cases h
        try cases sending

namespace Worker

/-- A worker takes a step, or its executor ends its call. -/
inductive Acts (s : Setting) (sh : Shared) (w : Worker) (m : Moved Worker) : Prop where
  | steps (gone : Bool) (step : w.step s sh gone = some m)
  | returns (result : CallResult) (ended : w.returns s sh result = some m)

variable {w : Worker} {m : Moved Worker}

theorem Acts.isLive (acts : Acts s sh w m) : w.isLive = true := by
  cases acts with
  | steps gone step => exact isLive_of_step step
  | returns result ended => exact isLive_of_returns ended

theorem Acts.move (acts : Acts s sh w m) : Move s.keys sh w m := by
  cases acts with
  | steps gone step => exact move_of_step rfl step
  | returns result ended => exact move_of_returns ended

/-- A worker that had looked receives the first task in the channel, or no task is received. -/
theorem Acts.received_or (acts : Acts s sh w m) :
    (∃ claim, w = .receiving ∧ m.loop = .beginning claim ∧
      sh.channel.buffer = claim :: m.shared.channel.buffer ∧ m.events = [.received claim]) ∨
    m.shared.channel = sh.channel ∧ m.events.filterMap Event.received? = [] := by
  cases acts.move with
  | received claim rest free loop head _ channel events =>
      refine .inl ⟨claim, ?_, loop, by rw [head, channel], events⟩
      cases acts with
      | returns result ended =>
          cases w with
          | executing => cases free
          | _ => cases ended
      | steps gone step =>
          cases w with
          | receiving => rfl
          | idle =>
              simp only [Worker.step] at step
              split at step
              all_goals
                cases step
                cases loop
          | starting | stopping =>
              cases step
              cases loop
          | stopped | panicked => cases step
          | beginning | executing | settling => cases free
  | quiet _ _ _ channel events => exact .inr ⟨channel, events.untouched.1⟩
  | called _ _ _ _ _ channel events | settled _ _ _ _ channel events
  | settleFailed _ _ _ _ _ _ channel events | panicked _ _ _ _ channel events =>
      exact .inr ⟨channel, by rw [events]; rfl⟩

/-- A worker whose run is cancelled does not turn to the channel any more. -/
theorem Acts.not_receiving (acts : Acts s sh w m) (cancelled : s.isCancelled sh = true) :
    m.loop ≠ .receiving := by
  intro receiving
  cases acts with
  | returns result ended =>
      cases w with
      | executing =>
          cases result
          all_goals
            cases ended
            cases receiving
      | _ => cases ended
  | steps gone step =>
      cases w with
      | idle =>
          simp only [Worker.step, cancelled, if_true] at step
          cases step
          cases receiving
      | starting | stopping =>
          cases step
          cases receiving
      | stopped | panicked => cases step
      | receiving | beginning | executing | settling =>
          simp only [Worker.step, finish] at step
          repeat' split at step
          all_goals
            cases step
            try cases receiving

end Worker

/-! ### What is received and sent -/

/-- The fetcher of run `n` takes a step. -/
def Act.isFetch (n : Nat) : Act → Bool
  | .step (.fetcher m) => m = n
  | _ => false

namespace Moment

/-- The events of an act, latest first. -/
def news (t : Moment) : List Event :=
  t.after.events.take (t.after.events.length - t.before.events.length)

/-- The tasks that worker `j` of run `n` receives. -/
def received (n j : Nat) (t : Moment) : List Claim :=
  if t.act.isOf n j then t.news.filterMap Event.received? else []

/-- The tasks that the fetcher of run `n` sends. -/
def sent (n : Nat) (t : Moment) : List Claim :=
  if t.act.isFetch n then t.news.filterMap Event.sent? else []

variable {t : Moment} {j : Nat}

theorem news_eq {es : List Event} (events : t.after.events = es ++ t.before.events) :
    t.news = es := by
  rw [news, events, List.length_append, Nat.add_sub_cancel, List.take_left]

/-- Nothing is received or sent where a channel goes away. -/
theorem filterMap_news_settle {f : Event → Option Claim} (lost : ∀ id, f (.discarded id) = none)
    (c : Cluster) (a : Act) (n : Nat) (r : Run) (sh : Shared) (es : List Event) :
    (Moment.news ⟨c, a, c.settle n r sh es⟩).filterMap f = (es.filterMap f).reverse := by
  have none : (({ r with channel := sh.channel } : Run).reap.2.reverse).filterMap f = [] := by
    refine List.filterMap_eq_nil_iff.mpr fun e he => ?_
    obtain ⟨id, rfl⟩ := Run.mem_reap (List.mem_reverse.mp he)
    exact lost id
  rw [news_eq (Cluster.events_settle c n r sh es), List.filterMap_append, none, List.nil_append,
    List.filterMap_reverse]

theorem received_settle (own : a.isOf n j = true) (c : Cluster) (r : Run) (sh : Shared)
    (es : List Event) :
    Moment.received n j ⟨c, a, c.settle n r sh es⟩ = (es.filterMap Event.received?).reverse := by
  rw [received, if_pos own, filterMap_news_settle (by simp [Event.received?])]

theorem sent_settle (own : a.isFetch n = true) (c : Cluster) (r : Run) (sh : Shared)
    (es : List Event) :
    Moment.sent n ⟨c, a, c.settle n r sh es⟩ = (es.filterMap Event.sent?).reverse := by
  rw [sent, if_pos own, filterMap_news_settle (by simp [Event.sent?])]

theorem received_of_other (other : t.act.isOf n j = false) : t.received n j = [] := by
  rw [received, if_neg (Bool.eq_false_iff.mp other)]

theorem sent_of_other (other : t.act.isFetch n = false) : t.sent n = [] := by
  rw [sent, if_neg (Bool.eq_false_iff.mp other)]

end Moment

/-! ### What an act does to a cancelled run -/

/-- The channel of the run is at hand, or nothing is in it and nothing will be. -/
def Run.Safe (r : Run) : Prop := r.kept = true ∨ r.Spent

/-- The channel of a run that goes on is not given up by a step of a loop. -/
theorem Run.Safe.buffer_reap (safe : r.Safe) (live : r.isLive = true) (kept : q.kept = r.kept)
    (channel : Channel) : ({ q with channel } : Run).reap.1.channel.buffer = channel.buffer := by
  rcases safe with at_hand | ⟨dead, -⟩
  · exact (Run.reap_same (r := { q with channel }) (.inl (kept.trans at_hand))).1
  · rw [live] at dead
    cases dead

namespace Cluster

variable {t : Moment} {ts : List Moment}

theorem runs_letGo_other (c : Cluster) (apart : n ≠ k) :
    (c.letGo n).runs[k]? = c.runs[k]? := by
  rcases c.letGo_cases n with ⟨runs, -⟩ | ⟨q, -, runs, -⟩
  · rw [runs]
  · rw [runs, List.getElem?_set_ne apart]

/-- Who has the channel of run `k`, and may take what is in it or let it go: the stop that has taken
the run, or its handle. -/
inductive HoldsRun (a : Act) (c : Cluster) (k : Nat) : Prop where
  | stop (n : Nat) (call : Call) (at_call : c.calls[n]? = some call)
      (stops : call.stage.stopping? = some k) (act : a = .step (.call n) ∨ a = .abandon n)
  | handle (j : Nat) (h : Handle) (handle : c.handles[j]? = some h) (runtime : h.runtime = some k)

/-- What an act can do to run `k` once it is cancelled, which is `r` and then `r'`. -/
inductive Winding (t : Moment) (k : Nat) (r r' : Run) : Prop where
  | passed (received : ∀ j, t.received k j = []) (sent : t.sent k = [])
      (workers : r'.workers = r.workers ∨ ∃ j w, r'.workers = r.workers.set j w ∧ w ≠ .receiving)
      (fetcher : r'.fetcher = r.fetcher ∨ ∀ claim, r'.fetcher ≠ .sending claim)
      (buffer : r.Safe → r'.channel.buffer = r.channel.buffer ∨ HoldsRun t.act t.before k)
  | received (j : Nat) (claim : Claim) (looked : r.workers[j]? = some .receiving)
      (workers : r'.workers = r.workers.set j (.beginning claim)) (fetcher : r'.fetcher = r.fetcher)
      (received : ∀ l, t.received k l = if l = j then [claim] else []) (sent : t.sent k = [])
      (buffer : r.Safe → r.channel.buffer = claim :: r'.channel.buffer)
  | sent (claim : Claim) (looked : r.fetcher = .sending claim)
      (fetcher : ∀ claim, r'.fetcher ≠ .sending claim) (workers : r'.workers = r.workers)
      (received : ∀ j, t.received k j = []) (sent : t.sent k = [claim])
      (buffer : r.Safe → r'.channel.buffer = r.channel.buffer ++ [claim])

/-- What an act does to run `k`, which is `r`, once it is cancelled. -/
def Winds (t : Moment) (k : Nat) (r : Run) : Prop :=
  ∃ r', t.after.runs[k]? = some r' ∧ Winding t k r r'

/-- The act is none of a loop of run `k`. -/
structure Aloof (a : Act) (k : Nat) : Prop where
  worker : ∀ j, a.isOf k j = false
  fetcher : a.isFetch k = false

/-- The run is as it was. -/
theorem winds_same (aloof : Aloof a k) (run : d.runs[k]? = some r) : Winds ⟨c, a, d⟩ k r :=
  ⟨r, run, .passed (fun j => Moment.received_of_other (aloof.worker j))
    (Moment.sent_of_other aloof.fetcher) (.inl rfl) (.inl rfl) fun _ => .inl rfl⟩

/-- The channel of run `n` is changed by who has it. -/
theorem winds_set (aloof : Aloof a k) (run : c.runs[k]? = some r) (at_n : c.runs[n]? = some q)
    (runs : d.runs = c.runs.set n r') (workers : r'.workers = q.workers)
    (fetcher : r'.fetcher = q.fetcher) (holds : HoldsRun a c n) : Winds ⟨c, a, d⟩ k r := by
  rcases Decidable.em (n = k) with rfl | apart
  · obtain rfl := Option.some.inj (run.symm.trans at_n)
    obtain ⟨hn, -⟩ := List.getElem?_eq_some_iff.mp run
    exact ⟨r', by rw [runs, List.getElem?_set_self hn],
      .passed (fun j => Moment.received_of_other (aloof.worker j))
        (Moment.sent_of_other aloof.fetcher) (.inl workers) (.inl fetcher) fun _ => .inr holds⟩
  · exact winds_same aloof (by rw [runs, List.getElem?_set_ne apart, run])

theorem winds_letGo (aloof : Aloof a k) (run : c.runs[k]? = some r)
    (runs : d.runs = (c.letGo n).runs) (holds : HoldsRun a c n) : Winds ⟨c, a, d⟩ k r := by
  rcases c.letGo_cases n with ⟨same, -⟩ | ⟨q, at_n, set, -⟩
  · exact winds_same aloof (by rw [runs, same, run])
  · exact winds_set aloof run at_n (runs.trans set) (Run.reap_workers _) (Run.reap_fetcher _) holds

theorem winds_fetched {m : Moved Fetcher} (run : c.runs[k]? = some r)
    (step : r.fetcher.step s (c.shared r) = some m)
    (cancelled : s.isCancelled (c.shared r) = true) :
    Winds ⟨c, .step (.fetcher k), c.settle k { r with fetcher := m.loop } m.shared m.events⟩
      k r := by
  obtain ⟨hk, -⟩ := List.getElem?_eq_some_iff.mp run
  have live : r.isLive = true := by
    rw [Run.isLive, Fetcher.isLive_of_step step, Bool.true_or]
  have buffer (safe : r.Safe) := safe.buffer_reap live (q := { r with fetcher := m.loop }) rfl
    m.shared.channel
  have sent := Moment.sent_settle (a := .step (.fetcher k)) (n := k) (by simp [Act.isFetch]) c
    { r with fetcher := m.loop } m.shared m.events
  have run' : (c.settle k { r with fetcher := m.loop } m.shared m.events).runs[k]? =
      some ({ r with fetcher := m.loop, channel := m.shared.channel } : Run).reap.1 := by
    rw [runs_settle, List.getElem?_set_self hk]
  generalize after :
    ({ r with fetcher := m.loop, channel := m.shared.channel } : Run).reap.1 = r' at buffer run'
  refine ⟨r', run', ?_⟩
  have workers : r'.workers = r.workers := after ▸ Run.reap_workers _
  have fetcher : r'.fetcher = m.loop := after ▸ Run.reap_fetcher _
  have unsending (claim : Claim) : r'.fetcher ≠ .sending claim :=
    fetcher ▸ Fetcher.not_sending_of_step step cancelled claim
  rcases (Fetcher.move_of_step rfl step).sent_or with ⟨claim, looked, -, channel, events⟩ |
    ⟨channel, events⟩
  · refine .sent claim looked unsending workers (fun j => Moment.received_of_other rfl)
      (sent.trans (by rw [events]; rfl)) fun safe => ?_
    rw [buffer safe, channel]
    rfl
  · refine .passed (fun j => Moment.received_of_other rfl) (sent.trans (by rw [events]; rfl))
      (.inl workers) (.inr unsending) fun safe => .inl ?_
    rw [buffer safe, channel]
    rfl

theorem winds_worked {j : Nat} {w : Worker} {m : Moved Worker} (run : c.runs[k]? = some r)
    (at_j : r.workers[j]? = some w) (own : a.isOf k j = true) (unfetched : a.isFetch k = false)
    (acts : w.Acts s (c.shared r) m) (cancelled : s.isCancelled (c.shared r) = true) :
    Winds ⟨c, a, c.settle k { r with workers := r.workers.set j m.loop } m.shared m.events⟩
      k r := by
  obtain ⟨hk, -⟩ := List.getElem?_eq_some_iff.mp run
  have live : r.isLive = true := by
    rw [Run.isLive, List.any_eq_true.mpr ⟨w, List.mem_of_getElem? at_j, acts.isLive⟩, Bool.or_true]
  have buffer (safe : r.Safe) := safe.buffer_reap live
    (q := { r with workers := r.workers.set j m.loop }) rfl m.shared.channel
  have mine := Moment.received_settle own c { r with workers := r.workers.set j m.loop } m.shared
    m.events
  have others {l : Nat} (apart : l ≠ j) : a.isOf k l = false :=
    Bool.eq_false_iff.mpr fun other => apart (Act.isOf_inj other own).2
  have run' : (c.settle k { r with workers := r.workers.set j m.loop } m.shared
      m.events).runs[k]? = some ({ r with
        workers := r.workers.set j m.loop, channel := m.shared.channel } : Run).reap.1 := by
    rw [runs_settle, List.getElem?_set_self hk]
  generalize after : ({ r with workers := r.workers.set j m.loop, channel := m.shared.channel }
    : Run).reap.1 = r' at buffer run'
  refine ⟨r', run', ?_⟩
  have workers : r'.workers = r.workers.set j m.loop := after ▸ Run.reap_workers _
  have fetcher : r'.fetcher = r.fetcher := after ▸ Run.reap_fetcher _
  rcases acts.received_or with ⟨claim, rfl, loop, head, events⟩ | ⟨channel, events⟩
  · refine .received j claim at_j (loop ▸ workers) fetcher (fun l => ?_)
      (Moment.sent_of_other unfetched) fun safe => (buffer safe).symm ▸ head
    split
    · next same =>
        subst same
        exact mine.trans (by rw [events]; rfl)
    · next apart => exact Moment.received_of_other (others apart)
  · refine .passed (fun l => ?_) (Moment.sent_of_other unfetched)
      (.inr ⟨j, m.loop, workers, acts.not_receiving cancelled⟩) (.inl fetcher) fun safe => .inl ?_
    · rcases Decidable.em (l = j) with rfl | apart
      · exact mine.trans (by rw [events]; rfl)
      · exact Moment.received_of_other (others apart)
    · rw [buffer safe, channel]
      rfl

theorem winds_of_stepCall (h : c.stepCall n = some d) (run : c.runs[k]? = some r) :
    Winds ⟨c, .step (.call n), d⟩ k r := by
  obtain ⟨call, hd, hc, -, step⟩ := stepCall_cases h
  have aloof : Aloof (.step (.call n)) k := ⟨fun _ => rfl, rfl⟩
  have holds {j : Nat} (stops : call.stage.stopping? = some j) :
      HoldsRun (.step (.call n)) c j := .stop n call hc stops (.inl rfl)
  cases step with
  | entered request stage entry =>
      cases entry with
      | answered _ _ _ eq | pushed _ _ _ _ _ eq | recovering _ _ _ eq | taken _ _ _ _ _ _ eq =>
          subst eq
          exact winds_same aloof run
      | launched parent asked lock running eq =>
          subst eq
          exact winds_same aloof (getElem?_concat_of run _)
  | joined _ _ _ _ _ _ _ _ eq | released _ _ _ _ eq | recovered _ _ _ _ _ _ _ eq =>
      subst eq
      exact winds_same aloof run
  | drained j q stage at_run eq =>
      subst eq
      exact winds_set aloof run at_run rfl rfl rfl (holds (by rw [stage]; rfl))
  | ended j stage eq =>
      subst eq
      exact winds_letGo aloof run rfl (holds (by rw [stage]; rfl))

/-- What any act does to a run that is cancelled. -/
theorem winds_of_perform (h : c.perform a = some d) (run : c.runs[k]? = some r)
    (cancelled : c.tokens.isCancelled r.token = true) : Winds ⟨c, a, d⟩ k r := by
  cases a with
  | step p =>
      cases p with
      | fetcher n =>
          obtain ⟨q, hd, m, hq, -, hm, rfl⟩ := stepFetcher_cases h
          rcases Decidable.em (n = k) with rfl | apart
          · obtain rfl := Option.some.inj (run.symm.trans hq)
            exact winds_fetched run hm cancelled
          · exact winds_same ⟨fun _ => rfl, by simp [Act.isFetch, apart]⟩
              (by rw [runs_settle, List.getElem?_set_ne apart, run])
      | worker n j =>
          obtain ⟨q, hd, w, m, hq, -, hw, hm, rfl⟩ := stepWorker_cases h
          rcases Decidable.em (n = k) with rfl | apart
          · obtain rfl := Option.some.inj (run.symm.trans hq)
            exact winds_worked run hw (by simp [Act.isOf]) rfl (.steps _ hm) cancelled
          · exact winds_same ⟨fun _ => by simp [Act.isOf, apart], rfl⟩
              (by rw [runs_settle, List.getElem?_set_ne apart, run])
      | call n => exact winds_of_stepCall h run
      | sweeper n heeds =>
          obtain ⟨s, hd, stage, memory, es, -, -, -, -, rfl⟩ := stepSweeper_cases h
          exact winds_same ⟨fun _ => rfl, rfl⟩ run
      | disposal j =>
          obtain ⟨hd, hh, -, ⟨-, rfl⟩ | ⟨n, q, runtime, -, rfl⟩⟩ := stepDisposal_cases h
          · exact winds_same ⟨fun _ => rfl, rfl⟩ run
          · exact winds_letGo ⟨fun _ => rfl, rfl⟩ run (runs_letGo (c := c) (by rfl) n)
              (.handle j hd hh runtime)
  | executorReturns n j result =>
      obtain ⟨q, hd, w, m, hq, -, hw, hm, rfl⟩ := executorReturns_cases h
      rcases Decidable.em (n = k) with rfl | apart
      · obtain rfl := Option.some.inj (run.symm.trans hq)
        exact winds_worked run hw (by simp [Act.isOf]) rfl (.returns result hm) cancelled
      · exact winds_same ⟨fun _ => by simp [Act.isOf, apart], rfl⟩
          (by rw [runs_settle, List.getElem?_set_ne apart, run])
  | abandon n =>
      cases h
      rcases c.abandon_cases n with eq | ⟨call, hc, ⟨-, eq⟩ | ⟨j, stops, eq⟩⟩
      · exact winds_same ⟨fun _ => rfl, rfl⟩ (by rw [eq]; exact run)
      · exact winds_same ⟨fun _ => rfl, rfl⟩ (by rw [eq]; exact run)
      · rw [eq]
        exact winds_letGo ⟨fun _ => rfl, rfl⟩ run (runs_letGo (c := c) (by rfl) j)
          (.stop n call hc stops (.inr rfl))
  | build name options =>
      obtain rfl := build_of_perform h
      exact winds_same ⟨fun _ => rfl, rfl⟩ run
  | invoke j request =>
      obtain ⟨-, rfl⟩ := invoke_of_perform h
      exact winds_same ⟨fun _ => rfl, rfl⟩ run
  | sweep j t config =>
      rcases sweep_of_perform h with rfl | rfl
      all_goals exact winds_same ⟨fun _ => rfl, rfl⟩ run
  | drop j | newToken | cancel t | failNext point count | elapse t =>
      cases h
      exact winds_same ⟨fun _ => rfl, rfl⟩ run

/-! ### What the loops of a cancelled run still do -/

/-- The fetcher of run `n`. -/
def fetcher? (c : Cluster) (n : Nat) : Option Fetcher := (c.runs[n]?).map Run.fetcher

/-- What the loops of run `n` receive and send in the moments `ts`, which begin in `c`. -/
structure Shut (n : Nat) (c : Cluster) (ts : List Moment) : Prop where
  /-- A worker that had looked receives one task at most, and no other worker receives any. -/
  received : ∀ j, ts.flatMap (Moment.received n j) = [] ∨
    c.worker? n j = some .receiving ∧ ∃ claim, ts.flatMap (Moment.received n j) = [claim]
  /-- A fetcher that had looked sends the task in its hand at most, and no other any. -/
  sent : ts.flatMap (Moment.sent n) = [] ∨
    ∃ claim, c.fetcher? n = some (.sending claim) ∧ ts.flatMap (Moment.sent n) = [claim]

/-- A loop that has looked passes one task at most. It was at the channel with what `looked` holds
of, it is there still with what `now` holds of, and `tasks` have passed. -/
inductive Once (looked now : Claim → Prop) (tasks : List Claim) : Prop where
  | waits (none : tasks = []) (still : ∀ claim, now claim → looked claim)
  | passed (claim : Claim) (had : looked claim) (one : tasks = [claim]) (gone : ∀ claim, ¬now claim)

section

variable {looked now now' : Claim → Prop} {tasks : List Claim}

/-- The loop does not turn to the channel. -/
theorem Once.stay (once : Once looked now tasks) (before : ∀ claim, now' claim → now claim) :
    Once looked now' ([] ++ tasks) := by
  cases once with
  | waits none still => exact .waits none fun claim h => still claim (before claim h)
  | passed claim had one gone =>
      exact .passed claim had one fun claim h => gone claim (before claim h)

theorem Once.pass {claim : Claim} (once : Once looked now tasks) (at_channel : now claim)
    (gone : ∀ claim, ¬now' claim) : Once looked now' ([claim] ++ tasks) := by
  cases once with
  | waits none still => exact .passed claim (still claim at_channel) (by rw [none]; rfl) gone
  | passed _ _ _ gone => exact (gone claim at_channel).elim

theorem Once.cases (once : Once looked now tasks) :
    tasks = [] ∨ ∃ claim, looked claim ∧ tasks = [claim] := by
  cases once with
  | waits none _ => exact .inl none
  | passed claim had one _ => exact .inr ⟨claim, had, one⟩

end

/-- How far the loops of a cancelled run have come, which was `q` and is `r`. -/
structure Shutting (n : Nat) (ts : List Moment) (q r : Run) : Prop where
  worker : ∀ j, Once (fun _ => q.workers[j]? = some .receiving)
    (fun _ => r.workers[j]? = some .receiving) (ts.flatMap (Moment.received n j))
  fetcher : Once (fun claim => q.fetcher = .sending claim) (fun claim => r.fetcher = .sending claim)
    (ts.flatMap (Moment.sent n))

/-- A worker that is set to something else does not turn to the channel. -/
theorem receiving_of_set {j l : Nat} {w : Worker} (other : w ≠ .receiving)
    (at_l : (r.workers.set j w)[l]? = some .receiving) :
    l ≠ j ∧ r.workers[l]? = some .receiving := by
  rcases getElem?_set_cases at_l with ⟨-, same⟩ | ⟨apart, before⟩
  · exact (other same.symm).elim
  · exact ⟨apart, before⟩

theorem Shutting.step (shutting : Shutting n ts q r) (winding : Winding t n r r') :
    Shutting n (t :: ts) q r' := by
  constructor
  · intro j
    rw [List.flatMap_cons]
    cases winding with
    | passed received _ workers =>
        rw [received]
        refine (shutting.worker j).stay fun _ now => ?_
        rcases workers with same | ⟨l, w, set, other⟩
        · exact same ▸ now
        · exact (receiving_of_set other (set ▸ now)).2
    | sent _ _ _ workers received =>
        rw [received]
        exact (shutting.worker j).stay fun _ now => workers ▸ now
    | received l claim looked workers _ received =>
        rw [received]
        split
        · next same =>
            subst same
            exact (shutting.worker j).pass looked fun _ now =>
              (receiving_of_set (by simp) (workers ▸ now)).1 rfl
        · exact (shutting.worker j).stay fun _ now =>
            (receiving_of_set (by simp) (workers ▸ now)).2
  · rw [List.flatMap_cons]
    cases winding with
    | passed _ sent _ fetcher =>
        rw [sent]
        refine shutting.fetcher.stay fun claim now => ?_
        rcases fetcher with same | other
        · exact same ▸ now
        · exact (other claim now).elim
    | received _ _ _ _ fetcher _ sent =>
        rw [sent]
        exact shutting.fetcher.stay fun claim now => fetcher ▸ now
    | sent claim looked gone _ _ sent =>
        rw [sent]
        exact shutting.fetcher.pass looked gone

theorem shutting_of_moments (h : Moments c ts d) (run : c.runs[n]? = some q)
    (cancelled : c.tokens.isCancelled q.token = true) :
    ∃ r, d.runs[n]? = some r ∧ d.tokens.isCancelled r.token = true ∧ Shutting n ts q r := by
  induction h with
  | refl => exact ⟨q, run, cancelled, fun _ => .waits rfl fun _ => id, .waits rfl fun _ => id⟩
  | perform _ hp ih =>
      obtain ⟨r, at_n, cancelled, shutting⟩ := ih
      obtain ⟨r', at_n', winding⟩ := winds_of_perform hp at_n cancelled
      obtain ⟨r'', at_n'', on⟩ := goesOn_of_perform hp n r at_n
      obtain rfl := Option.some.inj (at_n'.symm.trans at_n'')
      exact ⟨r', at_n', on.token ▸ grows_perform hp _ cancelled, shutting.step winding⟩

theorem Cancelled.shut (cancelled : c.Cancelled n) (h : Moments c ts d) : Shut n c ts := by
  obtain ⟨q, run, cancelled⟩ := cancelled
  obtain ⟨r, -, -, shutting⟩ := shutting_of_moments h run cancelled
  constructor
  · intro j
    rw [worker?_of_run run]
    exact (shutting.worker j).cases.imp_right fun ⟨claim, looked, one⟩ => ⟨looked, claim, one⟩
  · rw [fetcher?, run]
    exact shutting.fetcher.cases.imp_right fun ⟨claim, looked, one⟩ =>
      ⟨claim, congrArg some looked, one⟩

end Cluster

end ReliableQueue.Queue
