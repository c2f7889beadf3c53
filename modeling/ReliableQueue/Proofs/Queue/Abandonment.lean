import ReliableQueue.Proofs.Queue.Alternation
import ReliableQueue.Proofs.Queue.Stranding

/-!
Stops that are given up. A stop that returns has kept all its promises exactly when no stop of the
handle was given up once it was under way: its run is over, what was in the channel was put back,
and the next start is let in. A stop that was given up while it waited for its turn does no harm.
After one that was given up later, a stop returns at once and has done nothing, and all starts are
refused.
-/

namespace ReliableQueue.Queue

variable {i k n s : Nat} {a : Act} {c d e : Cluster} {q r r' : Run} {epoch : Nat}
  {m : Store.Memory} {buffer : List Claim}

/-! ### Moments -/

namespace Moment

/-- The caller of a stop of handle `i` gives up, and the stop is under way. -/
def givesUp (i : Nat) (t : Moment) : Bool :=
  match t.act with
  | .abandon n =>
      (t.before.calls[n]?).any fun call => call.handle = i && call.stage.stopping?.isSome
  | _ => false

theorem givesUp_iff (t : Moment) : t.givesUp i = true ↔ ∃ n call, t.act = .abandon n ∧
    t.before.calls[n]? = some call ∧ call.handle = i ∧ call.stage.stopping? ≠ none := by
  obtain ⟨b, a, d⟩ := t
  cases a with
  | abandon n => simp [givesUp, Option.any_eq_true, Option.isSome_iff_ne_none]
  | _ => simp [givesUp]

/-- Stop number `n` of handle `i` returns, and not with an error. -/
structure StopReturns (i n : Nat) (t : Moment) : Prop where
  act : t.act = .step (.call n)
  waits : t.before.StopWaits i n
  returned : t.after.Returned n

/-- Stop number `s` of handle `i` takes run `k`, which is `r`. -/
structure Takes (i s k : Nat) (r : Run) (t : Moment) : Prop where
  act : t.act = .step (.call s)
  asked : t.before.calls[s]? = some ⟨i, .entering .stop⟩
  run : t.before.runs[k]? = some r
  joins : t.after.calls[s]? = some ⟨i, .joining k 0⟩

/-- A task is put back at the head of the backlog, and its claim is removed. -/
structure Released (name id : String) (t : Moment) : Prop where
  event : t.after.events = .released id :: t.before.events
  pending : t.after.pending name = id :: t.before.pending name
  unclaimed : t.after.claim? name id = none

/-- The store refuses to take a task back, and nothing happens to it. -/
structure Unreleased (id : String) (t : Moment) : Prop where
  event : ∃ cause, t.after.events = .releaseFailed id cause :: t.before.events
  contents : t.after.memory.contents = t.before.memory.contents

/-- Stop number `s` of handle `i`, which ends run `k`, puts a task back if the store takes it, and
has `left` to do. -/
structure PutsBack (i s k : Nat) (claim : Claim) (left : List Claim) (t : Moment) : Prop where
  act : t.act = .step (.call s)
  before : t.before.calls[s]? = some ⟨i, .releasing k (claim :: left)⟩
  after : t.after.calls[s]? = some ⟨i, .releasing k left⟩
  released : (∃ h, t.before.handles[i]? = some h ∧ t.Released h.name claim.id) ∨
    t.Unreleased claim.id

end Moment

namespace Cluster

variable {t : Moment} {ts : List Moment}

/-- Where no stop of a handle is given up, its callers are patient. -/
theorem Moments.patient (h : Moments c ts d) (kept : ∀ t ∈ ts, t.givesUp i = false) :
    Reaches (Patient i) c d := by
  induction h with
  | refl => exact .refl
  | @perform ts d e a h hp ih =>
      refine .perform (ih fun t ht => kept t (List.mem_cons_of_mem _ ht)) ?_ hp
      have now := kept _ List.mem_cons_self
      cases a with
      | abandon n =>
          intro call hc own
          refine Classical.byContradiction fun stops => ?_
          rw [(Moment.givesUp_iff _).mpr ⟨n, call, rfl, hc, own, stops⟩] at now
          cases now
      | _ => trivial

/-! ### How far a stop has come -/

/-- What a stop that took run `k`, which was `q` then, finds in the channel in the end. Workers that
had looked by then may have taken the first tasks, and the fetcher may have sent one more. -/
structure Found (k : Nat) (ts : List Moment) (q : Run) (buffer taken sent : List Claim) :
    Prop where
  channel : q.channel.buffer ++ sent = taken ++ buffer
  number : taken.length ≤ q.workers.count .receiving
  received : ∀ claim ∈ taken,
    ∃ u ∈ ts, ∃ j, q.workers[j]? = some .receiving ∧ claim ∈ u.received k j

/-- What has become of the channel of run `k` since a stop took it; it was `q` and is `r`. -/
structure Drawn (k : Nat) (ts : List Moment) (q r : Run) (taken sent : List Claim) : Prop
    extends Found k ts q r.channel.buffer taken sent where
  more : taken.length + r.workers.count .receiving ≤ q.workers.count .receiving
  looked : ∀ j : Nat, r.workers[j]? = some .receiving → q.workers[j]? = some .receiving

/-- Of what a stop found in the channel, all from number `j` on was put back. -/
def BackFrom (i s k : Nat) (buffer : List Claim) (ts : List Moment) (j : Nat) : Prop :=
  ∀ l claim, j ≤ l → buffer[l]? = some claim →
    ∃ t ∈ ts, t.PutsBack i s k claim (buffer.take l).reverse

/-- How far stop `s` of handle `i` has come, which took run `k` when it was `q`. -/
inductive Progress (i s k : Nat) (q : Run) (ts : List Moment) (c : Cluster) : Prop where
  | waiting (r : Run) (stage : Stage) (taken sent : List Claim) (run : c.runs[k]? = some r)
      (cancelled : c.tokens.isCancelled r.token = true) (drawn : Drawn k ts q r taken sent)
      (call : c.calls[s]? = some ⟨i, stage⟩)
      (early : (∃ loop, stage = .joining k loop) ∨ stage = .draining k)
  | releasing (buffer taken sent : List Claim) (found : Found k ts q buffer taken sent) (j : Nat)
      (short : j ≤ buffer.length)
      (call : c.calls[s]? = some ⟨i, .releasing k (buffer.take j).reverse⟩)
      (back : BackFrom i s k buffer ts j)
  | finished (buffer taken sent : List Claim) (found : Found k ts q buffer taken sent)
      (back : BackFrom i s k buffer ts 0)

variable {taken sent : List Claim}

theorem Found.cons (found : Found k ts q buffer taken sent) (t : Moment) :
    Found k (t :: ts) q buffer taken sent where
  channel := found.channel
  number := found.number
  received claim hc := by
    obtain ⟨u, hu, j, looked, received⟩ := found.received claim hc
    exact ⟨u, List.mem_cons_of_mem t hu, j, looked, received⟩

theorem Drawn.cons (drawn : Drawn k ts q r taken sent) (t : Moment) :
    Drawn k (t :: ts) q r taken sent :=
  ⟨drawn.toFound.cons t, drawn.more, drawn.looked⟩

/-- While nobody else has the channel, tasks leave it to workers that had looked and in their
order, and what the fetcher sends comes last. -/
theorem Drawn.step {t : Moment} (drawn : Drawn k ts q r taken sent) (winding : Winding t k r r')
    (safe : r.Safe) (free : ¬HoldsRun t.act t.before k) :
    ∃ taken sent, Drawn k (t :: ts) q r' taken sent := by
  have past := (drawn.toFound.cons t).received
  cases winding with
  | passed _ _ workers _ buffer =>
      have same := (buffer safe).resolve_right free
      have fewer : r'.workers.count .receiving ≤ r.workers.count .receiving := by
        rcases workers with same | ⟨j, w, set, other⟩
        · exact Nat.le_of_eq (by rw [same])
        · rw [set]
          exact count_set_le other
      refine ⟨taken, sent, ⟨by rw [same]; exact drawn.channel, drawn.number, past⟩, ?_,
        fun j now => drawn.looked j ?_⟩
      · exact Nat.le_trans (Nat.add_le_add_left fewer _) drawn.more
      · rcases workers with same | ⟨l, w, set, other⟩
        · exact same ▸ now
        · exact (receiving_of_set other (set ▸ now)).2
  | received j claim looked workers _ received _ buffer =>
      have fewer := count_set_lt looked (show Worker.beginning claim ≠ .receiving by simp)
      rw [← workers] at fewer
      have more := drawn.more
      have number : (taken ++ [claim]).length + r'.workers.count .receiving ≤
          q.workers.count .receiving := by
        rw [List.length_append, List.length_singleton]
        omega
      refine ⟨taken ++ [claim], sent, ⟨?_, Nat.le_trans (Nat.le_add_right _ _) number, ?_⟩, number,
        fun l now => drawn.looked l ?_⟩
      · rw [drawn.channel, buffer safe, List.append_assoc, List.singleton_append]
      · refine List.forall_mem_append.mpr ⟨past, fun claim' hc => ?_⟩
        obtain rfl := List.mem_singleton.mp hc
        exact ⟨t, List.mem_cons_self, j, drawn.looked j looked, by rw [received, if_pos rfl]; simp⟩
      · exact (receiving_of_set (by simp) (workers ▸ now)).2
  | sent claim _ _ workers _ _ buffer =>
      refine ⟨taken, sent ++ [claim], ⟨?_, drawn.number, past⟩, by rw [workers]; exact drawn.more,
        fun j now => drawn.looked j (workers ▸ now)⟩
      rw [← List.append_assoc, drawn.channel, buffer safe, List.append_assoc]

theorem BackFrom.cons {j : Nat} (back : BackFrom i s k buffer ts j) (t : Moment) :
    BackFrom i s k buffer (t :: ts) j := by
  intro l claim hj hl
  obtain ⟨u, hu, puts⟩ := back l claim hj hl
  exact ⟨u, List.mem_cons_of_mem t hu, puts⟩

/-- A stop that takes a run cancels it. -/
theorem tokens_of_takes (h : c.perform a = some d) (takes : Moment.Takes i s k r ⟨c, a, d⟩) :
    d.runs = c.runs ∧ d.tokens = c.tokens.cancel r.token := by
  obtain ⟨act, asked, run, joins⟩ := takes
  subst act
  obtain ⟨call, hd, hc, hh, step⟩ := stepCall_cases h
  obtain rfl := Option.some.inj (asked.symm.trans hc)
  obtain ⟨hs, -⟩ := List.getElem?_eq_some_iff.mp hc
  have next {stage : Stage} (calls : d.calls = c.calls.set s ⟨i, stage⟩) :
      stage = .joining k 0 := by
    rw [calls, List.getElem?_set_self hs] at joins
    cases joins
    rfl
  cases step with
  | entered request stage entry =>
      cases stage
      cases entry with
      | answered memory result contents eq =>
          subst eq
          cases next (calls_setCall_of rfl hc _)
      | taken k' r' _ lock runtime at_run eq =>
          subst eq
          cases next (calls_setCall_of rfl hc _)
          obtain rfl := Option.some.inj (run.symm.trans at_run)
          exact ⟨rfl, rfl⟩
      | pushed _ _ asked | launched _ asked | recovering _ asked => cases asked
  | joined _ _ _ _ _ stage | drained _ _ stage | released _ _ _ stage | ended _ stage
  | recovered _ _ _ _ _ stage => cases stage

/-- It finds in the channel what is in it. -/
theorem progress_of_takes (hr : Reaches (fun _ _ => True) (onStore epoch m) c)
    (h : c.perform a = some d) (takes : Moment.Takes i s k r ⟨c, a, d⟩) :
    Progress i s k r ts d := by
  obtain ⟨runs, tokens⟩ := tokens_of_takes h takes
  have cancelled : d.tokens.isCancelled r.token = true := by
    rw [tokens]
    exact Cancellation.isCancelled_cancel _ (rooted_of_reaches hr k r takes.run)
  have run : d.runs[k]? = some r := by
    rw [runs]
    exact takes.run
  have drawn : Drawn k ts r r [] [] :=
    ⟨⟨by rw [List.append_nil, List.nil_append], Nat.zero_le _, by simp⟩,
      Nat.le_of_eq (Nat.zero_add _), fun _ => id⟩
  exact .waiting r _ [] [] run cancelled drawn takes.joins (.inl ⟨0, rfl⟩)

/-- The step of a stop that waits for the loops of its run or empties the channel. -/
theorem Progress.next {stage : Stage} (h : c.stepCall s = some d) (run : c.runs[k]? = some r)
    (cancelled : c.tokens.isCancelled r.token = true) (drawn : Drawn k ts q r taken sent)
    (call : c.calls[s]? = some ⟨i, stage⟩)
    (early : (∃ loop, stage = .joining k loop) ∨ stage = .draining k) :
    Progress i s k q ts d := by
  obtain ⟨call', hd, hc, hh, step⟩ := stepCall_cases h
  obtain rfl := Option.some.inj (call.symm.trans hc)
  obtain ⟨hs, -⟩ := List.getElem?_eq_some_iff.mp hc
  have under : stage.stopping? = some k := by
    rcases early with ⟨loop, rfl⟩ | rfl <;> rfl
  have now {stage' : Stage} (calls : d.calls = c.calls.set s ⟨i, stage'⟩) :
      d.calls[s]? = some ⟨i, stage'⟩ := by
    rw [calls, List.getElem?_set_self hs]
  cases step with
  | joined j loop r' next panicked was at_run after eq =>
      subst was eq
      cases under
      refine .waiting r next taken sent run cancelled drawn (now (calls_setCall hc next)) ?_
      exact after.imp (fun eq => ⟨_, eq⟩) And.left
  | drained j r' was at_run eq =>
      subst was eq
      cases under
      obtain rfl := Option.some.inj (run.symm.trans at_run)
      refine .releasing r.channel.buffer taken sent drawn.toFound r.channel.buffer.length
        (Nat.le_refl _) ?_ fun l claim long hl => ?_
      · rw [List.take_length]
        exact now (calls_setCall_of rfl hc _)
      · rw [List.getElem?_eq_none long] at hl
        cases hl
  | entered request was =>
      subst was
      cases under
  | recovered maxAge recovery o memory es was =>
      subst was
      cases under
  | released j claim rest was | ended j was =>
      subst was
      rcases early with ⟨loop, eq⟩ | eq <;> cases eq

/-- What a stop has left to release is in the order of the channel, the last task first. -/
theorem left_of_take {j : Nat} {claim : Claim} {rest : List Claim} (short : j ≤ buffer.length)
    (left : (buffer.take j).reverse = claim :: rest) :
    ∃ l, j = l + 1 ∧ buffer[l]? = some claim ∧ (buffer.take l).reverse = rest := by
  cases j with
  | zero => cases left
  | succ l =>
      rw [List.take_succ_eq_append_getElem short, List.reverse_append, List.reverse_singleton,
        List.singleton_append] at left
      obtain ⟨rfl, rest⟩ := List.cons.inj left
      exact ⟨l, rfl, List.getElem?_eq_getElem short, rest⟩

/-- The step of a stop that releases a task. -/
theorem putsBack_of_release {claim : Claim} {left : List Claim} {hd : Handle}
    (hc : c.calls[s]? = some ⟨i, .releasing k (claim :: left)⟩) (hh : c.handles[i]? = some hd)
    (eq : d = ({ c with memory := (release hd.keys claim.id c.memory).2 }.setCall s
      (.releasing k left)).record i [(release hd.keys claim.id c.memory).1]) :
    Moment.PutsBack i s k claim left ⟨c, .step (.call s), d⟩ := by
  obtain ⟨hs, -⟩ := List.getElem?_eq_some_iff.mp hc
  subst eq
  refine ⟨rfl, hc, ?_, ?_⟩
  · exact (congrArg (·[s]?) (calls_setCall_of rfl hc _)).trans (List.getElem?_set_self hs)
  · rcases release_cases hd.keys claim.id c.memory with ⟨told, contents⟩ |
      ⟨cause, told, -, contents⟩
    · refine .inl ⟨hd, hh, ?_, ?_, ?_⟩
      · simp [told, events]
        rfl
      · show Store.Contents.list (release hd.keys claim.id c.memory).2.contents _ = _
        rw [contents]
        exact pending_release _ _ _
      · show Store.Contents.score? (release hd.keys claim.id c.memory).2.contents _ _ = _
        rw [contents]
        exact (score?_release _ _ _ _).trans (if_pos rfl)
    · refine .inr ⟨⟨cause, ?_⟩, contents⟩
      simp [told, events]
      rfl

/-- The step of a stop that puts tasks back. -/
theorem Progress.release {j : Nat} (h : c.stepCall s = some d)
    (found : Found k ts q buffer taken sent) (short : j ≤ buffer.length)
    (call : c.calls[s]? = some ⟨i, .releasing k (buffer.take j).reverse⟩)
    (back : BackFrom i s k buffer ts j) :
    Progress i s k q (⟨c, .step (.call s), d⟩ :: ts) d := by
  obtain ⟨call', hd, hc, hh, step⟩ := stepCall_cases h
  obtain rfl := Option.some.inj (call.symm.trans hc)
  generalize stage : (buffer.take j).reverse = left at *
  cases step with
  | released j' claim rest was eq =>
      cases was
      obtain ⟨l, rfl, at_l, rfl⟩ := left_of_take short stage
      have puts := putsBack_of_release hc hh eq
      refine .releasing buffer taken sent (found.cons _) l (Nat.le_of_succ_le short) puts.after
        fun l' claim' hl hl' => ?_
      rcases Nat.eq_or_lt_of_le hl with rfl | later
      · obtain rfl := Option.some.inj (at_l.symm.trans hl')
        exact ⟨_, List.mem_cons_self, puts⟩
      · exact back.cons _ l' claim' later hl'
  | ended j' was eq =>
      cases was
      obtain rfl : j = 0 := by
        have length := congrArg List.length stage
        rw [List.length_reverse, List.length_take, Nat.min_eq_left short] at length
        exact length
      exact .finished buffer taken sent (found.cons _) (back.cons _)
  | entered _ was | joined _ _ _ _ _ was | drained _ _ was | recovered _ _ _ _ _ was => cases was

/-- All that the stop found was put back, so all that it had taken over was put back or received. -/
theorem Found.putBack (found : Found k ts q buffer taken sent) (back : BackFrom i s k buffer ts 0) :
    ∃ taken back, q.channel.buffer = taken ++ back ∧
      taken.length ≤ q.workers.count .receiving ∧
      (∀ claim ∈ taken, ∃ u ∈ ts, ∃ j, q.workers[j]? = some .receiving ∧ claim ∈ u.received k j) ∧
      ∀ j claim, back[j]? = some claim →
        ∃ u ∈ ts, u.PutsBack i s k claim (back.take j).reverse := by
  rcases List.append_eq_append_iff.mp found.channel with ⟨rest, rfl, -⟩ | ⟨rest, all, rfl⟩
  · have number := found.number
    rw [List.length_append] at number
    exact ⟨q.channel.buffer, [], (List.append_nil _).symm, Nat.le_of_add_right_le number,
      fun claim hc => found.received claim (List.mem_append_left _ hc), by simp⟩
  · refine ⟨taken, rest, all, found.number, found.received, fun j claim at_j => ?_⟩
    obtain ⟨short, -⟩ := List.getElem?_eq_some_iff.mp at_j
    have puts := back j claim (Nat.zero_le j) (by rw [List.getElem?_append_left short, at_j])
    rwa [List.take_append_of_le_length (Nat.le_of_lt short)] at puts

/-- While a stop waits for the loops of a run, nobody else has the channel of the run. -/
theorem alone_of_stopping (hr : Reaches (fun _ _ => True) (onStore epoch m) c) {stage : Stage}
    (run : c.runs[k]? = some r) (call : c.calls[s]? = some ⟨i, stage⟩)
    (stops : stage.stopping? = some k) (idle : a ≠ .step (.call s)) (kept : a ≠ .abandon s) :
    ¬HoldsRun a c k := by
  have standing := anyhow_of_reaches hr
  obtain ⟨hd, q, under⟩ := (standing i).stopping_of call rfl stops
  obtain rfl := Option.some.inj (run.symm.trans under.run)
  intro holds
  cases holds with
  | stop n call' at_call stops' act =>
      obtain ⟨hd', q', under'⟩ := (standing call'.handle).stopping_of at_call rfl stops'
      obtain rfl := Option.some.inj (run.symm.trans under'.run)
      have own : call'.handle = i := under'.own.symm.trans under.own
      rcases Decidable.em (n = s) with rfl | apart
      · exact act.elim idle kept
      · rw [under.free n call' (by simpa using apart) at_call own] at stops'
        cases stops'
  | handle j h' handle runtime =>
      obtain ⟨q', going⟩ := (standing j).active_of handle runtime
      obtain rfl := Option.some.inj (run.symm.trans going.run)
      obtain rfl : j = i := going.own.symm.trans under.own
      obtain rfl := Option.some.inj (handle.symm.trans under.handle)
      rw [under.runtime] at runtime
      cases runtime

/-- The channel of the run that a stop has taken is at hand until the run is over. -/
theorem safe_of_stopping (hr : Reaches (fun _ _ => True) (onStore epoch m) c) {stage : Stage}
    (run : c.runs[k]? = some r) (call : c.calls[s]? = some ⟨i, stage⟩)
    (stops : stage.stopping? = some k) : r.Safe := by
  have standing := anyhow_of_reaches hr i
  obtain ⟨hd, q, under⟩ := standing.stopping_of call rfl stops
  obtain rfl := Option.some.inj (run.symm.trans under.run)
  refine (stranded_or_safe hr i).resolve_left (fun stranded => ?_) k r run under.own
  rw [stranded.free standing call rfl] at stops
  cases stops

/-- What happens to the run of a stop that waits for its loops, while the stop takes no step. -/
theorem Progress.wait (hr : Reaches (fun _ _ => True) (onStore epoch m) c)
    (h : c.perform a = some d) {stage : Stage} (run : c.runs[k]? = some r)
    (cancelled : c.tokens.isCancelled r.token = true) (drawn : Drawn k ts q r taken sent)
    (call : c.calls[s]? = some ⟨i, stage⟩)
    (early : (∃ loop, stage = .joining k loop) ∨ stage = .draining k)
    (stops : stage.stopping? = some k) (same : d.calls[s]? = some ⟨i, stage⟩)
    (idle : a ≠ .step (.call s)) (kept : a ≠ .abandon s) :
    Progress i s k q (⟨c, a, d⟩ :: ts) d := by
  obtain ⟨r', run', winding⟩ := winds_of_perform h run cancelled
  obtain ⟨r'', run'', on⟩ := goesOn_of_perform h k r run
  obtain rfl := Option.some.inj (run'.symm.trans run'')
  obtain ⟨taken, sent, drawn⟩ := drawn.step winding (safe_of_stopping hr run call stops)
    (alone_of_stopping hr run call stops idle kept)
  exact .waiting r' stage taken sent run' (on.token ▸ grows_perform h _ cancelled) drawn same early

/-- A stop that is not given up goes on with what it found in the channel. -/
theorem Progress.perform (progress : Progress i s k q ts c)
    (hr : Reaches (fun _ _ => True) (onStore epoch m) c) (h : c.perform a = some d)
    (kept : Moment.givesUp i ⟨c, a, d⟩ = false) :
    Progress i s k q (⟨c, a, d⟩ :: ts) d := by
  -- Only its own step changes the stop.
  have stays {stage : Stage} (call : c.calls[s]? = some ⟨i, stage⟩)
      (stops : stage.stopping? = some k) : a = .step (.call s) ∨ a ≠ .step (.call s) ∧
        a ≠ .abandon s ∧ d.calls[s]? = some ⟨i, stage⟩ := by
    have patient : a ≠ .abandon s := by
      rintro rfl
      have now : Moment.givesUp i ⟨c, .abandon s, d⟩ = true :=
        (Moment.givesUp_iff _).mpr ⟨s, _, rfl, call, rfl, by simp [stops]⟩
      rw [now] at kept
      cases kept
    rcases (calls_of_perform h).kept call with same | act | act
    · exact (Classical.em (a = .step (.call s))).imp_right fun idle => ⟨idle, patient, same⟩
    · exact .inl act
    · exact (patient act).elim
  cases progress with
  | finished buffer taken sent found back =>
      exact .finished buffer taken sent (found.cons _) (back.cons _)
  | releasing buffer taken sent found j short call back =>
      rcases stays call rfl with rfl | ⟨-, -, same⟩
      · exact .release h found short call back
      · exact .releasing buffer taken sent (found.cons _) j short same (back.cons _)
  | waiting r stage taken sent run cancelled drawn call early =>
      have stops : stage.stopping? = some k := by
        rcases early with ⟨loop, rfl⟩ | rfl <;> rfl
      rcases stays call stops with rfl | ⟨idle, patient, same⟩
      · exact .next h run cancelled (drawn.cons _) call early
      · exact .wait hr h run cancelled drawn call early stops same idle patient

/-- Where no stop of the handle is given up, all that took a run have gone on with it. -/
theorem progress_of_moments (h : Moments (onStore epoch m) ts c)
    (kept : ∀ t ∈ ts, t.givesUp i = false) (ht : t ∈ ts) (takes : t.Takes i s k r) :
    Progress i s k r ts c := by
  induction h with
  | refl => cases ht
  | @perform ts c d a h hp ih =>
      rcases List.mem_cons.mp ht with rfl | ht
      · exact progress_of_takes h.reaches hp takes
      · exact (ih (fun t ht => kept t (List.mem_cons_of_mem _ ht)) ht).perform h.reaches hp
          (kept _ List.mem_cons_self)

/-! ### Stops that return -/

theorem Stage.request?_of_isStop {stage : Stage} (stop : stage.isStop = true) :
    stage.request? = some .stop := by
  cases stage with
  | entering request => cases request <;> first | rfl | cases stop
  | joining | draining | releasing => rfl
  | _ => cases stop

/-- The returning of a stop is a turn of its handle. -/
theorem turn?_of_stop (waits : c.StopWaits i n) (h : c.perform a = some d)
    (returned : d.Returned n) :
    ∃ result, turn? i c d a = some ⟨n, .stop, result⟩ := by
  obtain ⟨stage, hc, stop⟩ := waits.call
  obtain ⟨after, hd, ok⟩ := Option.any_eq_true _ _ |>.mp returned
  obtain ⟨result, result_eq⟩ : ∃ result, after.stage.result? = some result := by
    cases eq : after.stage with
    | finished time result => exact ⟨result, rfl⟩
    | _ =>
        rw [eq] at ok
        cases ok
  exact ⟨result,
    turn?_of_returned h hc rfl (Stage.request?_of_isStop stop) rfl hd result_eq⟩

/-- Where no stop of the handle was given up, one that returns leaves no run of it going. -/
theorem quiescent_of_stop (hr : Reaches (Patient i) (onStore epoch m) c)
    (waits : c.StopWaits i n) (h : c.perform a = some d) (returned : d.Returned n)
    (patient : Patient i c a) : Quiescent i d := by
  obtain ⟨result, turn⟩ := turn?_of_stop waits h returned
  have standing := standing_of_patient hr fun _ _ allowed => allowed
  have after := standing_of_patient (.perform hr patient h) fun _ _ allowed => allowed
  cases answer_of_turn h standing turn with
  | started _ asked | refused _ asked => cases asked
  | stopped _ _ idle =>
      obtain ⟨stage, hc, -⟩ := waits.call
      obtain ⟨hd, hh⟩ := handle_of_call hr hc
      obtain ⟨hd', hh', -⟩ := handle_of_perform h hh
      exact after.quiescent_of hh' ((isRunning_of_handle hh').symm.trans idle)

/-- A stop of a handle that is stranded returns at once and has done nothing. -/
theorem Stranded.stop_returns (stranded : Stranded i c) (standing : Standing True i c)
    (waits : c.StopWaits i n) (h : c.perform a = some d) (returned : d.Returned n) :
    d = c.setCall n (.finished c.now (.ok .done)) := by
  obtain ⟨stage, hc, stop⟩ := waits.call
  have free : stage.stopping? = none := stranded.free standing hc rfl
  obtain rfl := entering_of_turn (Stage.request?_of_isStop stop) rfl free
  obtain ⟨hd, hh, lock, runtime, -⟩ := stranded
  have step := waits.returns h returned
  simp only [stepCall, hc, hh, enter, lock, runtime, Option.bind_eq_bind, Option.bind_some,
    Option.isSome_none, Bool.false_eq_true, if_false, Option.some.injEq] at step
  exact step.symm

/-- A start of a handle that runs is refused. -/
theorem refused_of_running {u : Turn} {parent : Token} (running : c.isRunning i = true)
    (h : c.perform a = some d) (turn : turn? i c d a = some u)
    (asked : u.request = .start parent) : u.result = .error .alreadyRunning := by
  obtain ⟨n, rfl⟩ := act_of_turn turn
  obtain ⟨call, after, request, result, hc, asked', hd, returned, rfl, -, rfl⟩ :=
    turn?_eq_some.mp turn
  cases asked
  obtain ⟨call', h', hc', hh, step⟩ := stepCall_cases h
  obtain rfl := Option.some.inj (hc.symm.trans hc')
  obtain ⟨hn, -⟩ := List.getElem?_eq_some_iff.mp hc
  cases step with
  | entered request stage entry =>
      rw [stage] at asked'
      cases asked'
      cases entry with
      | answered memory result' contents eq idle refused =>
          obtain ⟨-, -, rfl⟩ := refused parent rfl
          have calls := calls_setCall_of (b := { c with memory }) rfl hc
            (.finished c.now (.error .alreadyRunning))
          rw [eq, calls, List.getElem?_set_self hn] at hd
          cases hd
          exact (Option.some.inj returned).symm
      | launched _ _ _ idle =>
          rw [isRunning_of_handle hh, idle] at running
          cases running
      | pushed _ _ other | taken _ _ other | recovering _ other => cases other
  | joined _ _ _ _ _ stage | drained _ _ stage | released _ _ _ stage | ended _ stage
  | recovered _ _ _ _ _ stage =>
      rw [stage] at asked'
      cases asked'

theorem Quiescent.isRunning (rest : Quiescent i c) : c.isRunning i = false := by
  cases hh : c.handles[i]? with
  | none => simp [Cluster.isRunning, hh]
  | some h => exact (isRunning_of_handle hh).trans (rest.handle h hh).running

/-- A start of a handle that is at rest is let in. -/
theorem Quiescent.start_returns {parent : Token} (rest : Quiescent i c) {h : Handle}
    (handle : c.handles[i]? = some h) (hc : c.calls[n]? = some ⟨i, .entering (.start parent)⟩) :
    ∃ d, c.stepCall n = some d ∧ d.calls[n]? = some ⟨i, .finished c.now (.ok .done)⟩ ∧
      d.isRunning i = true := by
  obtain ⟨lock, -, running⟩ := rest.handle h handle
  obtain ⟨hn, -⟩ := List.getElem?_eq_some_iff.mp hc
  obtain ⟨hi, -⟩ := List.getElem?_eq_some_iff.mp handle
  have step : c.stepCall n =
      some ((c.launch i h parent).setCall n (.finished c.now (.ok .done))) := by
    simp [stepCall, hc, handle, enter, lock, running]
  refine ⟨_, step, ?_, ?_⟩
  · exact (congrArg (·[n]?) (calls_setCall_of rfl hc _)).trans (List.getElem?_set_self hn)
  · show ((c.handles.set i _)[i]?).any Handle.running = true
    rw [List.getElem?_set_self hi]
    rfl

/-! ### What comes after -/

/-- While nothing but stops returns, a handle that does not run stays so. -/
theorem idle_of_turns {us : List Turn} (hr : Reaches (fun _ _ => True) (onStore epoch m) d)
    (idle : d.isRunning i = false) (turns : Turns (fun _ _ => True) i d us e)
    (stops : ∀ u ∈ us, u.request = .stop) :
    Reaches (fun _ _ => True) (onStore epoch m) e ∧ e.isRunning i = false := by
  induction turns with
  | refl => exact ⟨hr, idle⟩
  | @perform us c e a turns _ hp ih =>
      obtain ⟨reached, idle⟩ := ih fun u hu => stops u (List.mem_append_right _ hu)
      refine ⟨.perform reached trivial hp, ?_⟩
      cases turn : turn? i c e a with
      | none => exact (kept_of_no_turn hp turn).1.trans idle
      | some u =>
          have stop := stops u (by simp [turn])
          obtain ⟨n, rfl⟩ := act_of_turn turn
          obtain ⟨call, -, -, -, hc, -, -, -, own, -⟩ := turn?_eq_some.mp turn
          obtain ⟨h, hh⟩ := handle_of_call reached hc
          rw [own] at hh
          have rest := (anyhow_of_reaches reached i).quiescent_of hh
            ((isRunning_of_handle hh).symm.trans idle)
          cases answer_of_turn hp (.quiescent rest) turn with
          | started _ asked | refused _ asked =>
              rw [stop] at asked
              cases asked
          | stopped _ _ idle => exact idle

/-- A handle that is stranded refuses all starts, for good. -/
theorem Stranded.of_turns {us : List Turn} (stranded : Stranded i d)
    (hr : Reaches (fun _ _ => True) (onStore epoch m) d)
    (turns : Turns (fun _ _ => True) i d us e) :
    Reaches (fun _ _ => True) (onStore epoch m) e ∧ Stranded i e ∧
      ∀ u ∈ us, ∀ parent, u.request = .start parent → u.result = .error .alreadyRunning := by
  induction turns with
  | refl => exact ⟨hr, stranded, by simp⟩
  | @perform us c e a turns _ hp ih =>
      obtain ⟨reached, stranded, refused⟩ := ih
      refine ⟨.perform reached trivial hp, stranded.perform (anyhow_of_reaches reached i) hp,
        fun u hu parent asked => ?_⟩
      rcases List.mem_append.mp hu with hu | hu
      · exact refused_of_running stranded.isRunning hp (Option.mem_toList.mp hu) asked
      · exact refused u hu parent asked

theorem stranded_of_givesUp (h : Moments (onStore epoch m) ts c) (ht : t ∈ ts)
    (gives : t.givesUp i = true) : Stranded i c := by
  induction h with
  | refl => cases ht
  | @perform ts c d a h hp ih =>
      have standing := anyhow_of_reaches h.reaches i
      rcases List.mem_cons.mp ht with rfl | ht
      · obtain ⟨n, call, act, hc, own, stops⟩ := (Moment.givesUp_iff _).mp gives
        obtain ⟨k, stops⟩ := Option.ne_none_iff_exists'.mp stops
        cases act
        cases hp
        exact stranded_of_abandon standing hc own stops
      · exact (ih ht).perform standing hp

/-- What a stop of handle `i` that has returned in `d` promises; `ts` are the moments so far. -/
structure Stopped (i : Nat) (ts : List Moment) (d : Cluster) : Prop where
  /-- No loop of the handle is live, and nothing is in a channel. -/
  spent : ∀ (n : Nat) (r : Run), d.runs[n]? = some r → r.handle = i → r.Spent
  /-- What was in the channel of a run when a stop took it went back to the backlog, the last task
  first, unless the store refused it. Only the first tasks may have gone to workers instead that
  had looked by then, one to each at most. -/
  putBack : ∀ t ∈ ts, ∀ s k r, t.Takes i s k r → ∃ taken back, r.channel.buffer = taken ++ back ∧
    taken.length ≤ r.workers.count .receiving ∧
    (∀ claim ∈ taken, ∃ u ∈ ts, ∃ j, r.workers[j]? = some .receiving ∧ claim ∈ u.received k j) ∧
    ∀ j claim, back[j]? = some claim → ∃ u ∈ ts, u.PutsBack i s k claim (back.take j).reverse
  idle : d.isRunning i = false
  /-- The next start is let in, whatever happens before it. -/
  starts : ∀ us e n parent, Turns (fun _ _ => True) i d us e → (∀ u ∈ us, u.request = .stop) →
    e.calls[n]? = some ⟨i, .entering (.start parent)⟩ →
      ∃ f, e.stepCall n = some f ∧ f.calls[n]? = some ⟨i, .finished e.now (.ok .done)⟩ ∧
        f.isRunning i = true

/-- A stop of handle `i` returns and has done nothing. The handle runs, and will not stop. -/
structure StoppedInVain (i n : Nat) (t : Moment) : Prop where
  nothing : t.after = t.before.setCall n (.finished t.before.now (.ok .done))
  running : t.after.isRunning i = true
  refused : ∀ us e, Turns (fun _ _ => True) i t.after us e → e.isRunning i = true ∧
    ∀ u ∈ us, ∀ parent, u.request = .start parent → u.result = .error .alreadyRunning

/-- A stop that has returned keeps what it promises exactly when no stop of the handle was given up
before, while it was under way. If one was, the stop is in vain. -/
theorem stopped_unless_given_up (h : Moments (onStore epoch m) (t :: ts) d)
    (returns : t.StopReturns i n) :
    (Stopped i (t :: ts) d ↔ ∀ u ∈ ts, u.givesUp i = false) ∧
      ((∃ u ∈ ts, u.givesUp i = true) → StoppedInVain i n t) := by
  have reached := h.reaches
  cases h with
  | @perform _ c _ a before hp =>
  obtain ⟨act, waits, returned⟩ := returns
  cases act
  have vain (given : ∃ u ∈ ts, u.givesUp i = true) :
      StoppedInVain i n ⟨c, .step (.call n), d⟩ := by
    obtain ⟨u, hu, gives⟩ := given
    have stranded := stranded_of_givesUp before hu gives
    have standing := anyhow_of_reaches before.reaches i
    have after := stranded.perform standing hp
    refine ⟨stranded.stop_returns standing waits hp returned, after.isRunning,
      fun us e turns => ?_⟩
    obtain ⟨-, still, refused⟩ := after.of_turns reached turns
    exact ⟨still.isRunning, refused⟩
  refine ⟨⟨fun stopped u hu => ?_, fun kept => ?_⟩, vain⟩
  · refine Bool.eq_false_iff.mpr fun gives => ?_
    have running := (vain ⟨u, hu, gives⟩).running
    rw [stopped.idle] at running
    cases running
  · have rest := quiescent_of_stop (before.patient kept) waits hp returned trivial
    have all : ∀ u ∈ (⟨c, .step (.call n), d⟩ :: ts : List Moment), u.givesUp i = false :=
      List.forall_mem_cons.mpr ⟨rfl, kept⟩
    refine ⟨rest.spent, fun t ht s k r takes => ?_, rest.isRunning,
      fun us e n parent turns stops hc => ?_⟩
    · cases progress_of_moments (.perform before hp) all ht takes with
      | finished buffer taken sent found back => exact found.putBack back
      | releasing _ _ _ _ _ _ call => cases rest.free s _ (by rintro ⟨⟩) call rfl
      | waiting _ stage _ _ _ _ _ call early =>
          have free := rest.free s _ (by rintro ⟨⟩) call rfl
          rcases early with ⟨loop, rfl⟩ | rfl <;> cases free
    · obtain ⟨later, still⟩ := idle_of_turns reached rest.isRunning turns stops
      obtain ⟨h, hh⟩ := handle_of_call later hc
      exact ((anyhow_of_reaches later i).quiescent_of hh
        ((isRunning_of_handle hh).symm.trans still)).start_returns hh hc

/-- A task is sent to a worker that does not take it, and the queue is stopped. A second stop is
given up while it waits for the first one. -/
def patientStop : List Act := List.flatten [
  [.build "q" { workers := 1 }, .newToken, .invoke 0 (.push [{ id := "x" }]), .step (.call 0),
    .invoke 0 (.start ⟨[0]⟩), .step (.call 1)],
  List.replicate 8 (.step (.fetcher 0)),
  [.invoke 0 .stop, .step (.call 2), .invoke 0 .stop, .abandon 3],
  List.replicate 2 (.step (.fetcher 0)),
  List.replicate 3 (.step (.worker 0 0)),
  List.replicate 4 (.step (.call 2))]

def patientlyStopping : Cluster := ((onStore 0 {}).run patientStop).get (by decide +kernel)

def patientlyStopped : Cluster :=
  (patientlyStopping.perform (.step (.call 2))).get (by decide +kernel)

theorem stopped_unless_given_up_patient :
    Stopped 0 (⟨patientlyStopping, .step (.call 2), patientlyStopped⟩ ::
      momentsOf (onStore 0 {}) [] patientStop) patientlyStopped ∧
      patientlyStopped.pending "q" = ["x"] := by
  have moments := Moments.of_run .refl
    (show (onStore 0 {}).run patientStop = some patientlyStopping from (Option.some_get _).symm)
  have whole := moments.perform
    (show patientlyStopping.perform (.step (.call 2)) = some patientlyStopped from
      (Option.some_get _).symm)
  have returns : Moment.StopReturns 0 2 ⟨patientlyStopping, .step (.call 2), patientlyStopped⟩ :=
    ⟨rfl, by decide +kernel, by decide +kernel⟩
  have kept : ∀ u ∈ momentsOf (onStore 0 {}) [] patientStop, u.givesUp 0 = false := by
    decide +kernel
  exact ⟨(stopped_unless_given_up whole returns).1.mpr kept, by decide +kernel⟩

/-- A worker has a task, another one is in the channel, and the queue is stopped. The caller of the
stop gives up while the executor is busy; then the queue is stopped once more. -/
def forsakenStop : List Act := List.flatten [
  [.build "q" { workers := 1 }, .newToken, .invoke 0 (.push [{ id := "x" }, { id := "y" }]),
    .step (.call 0), .invoke 0 (.start ⟨[0]⟩), .step (.call 1)],
  List.replicate 8 (.step (.fetcher 0)),
  List.replicate 4 (.step (.worker 0 0)),
  List.replicate 7 (.step (.fetcher 0)),
  [.invoke 0 .stop, .step (.call 2), .abandon 2, .invoke 0 .stop]]

def forsakenStopping : Cluster := ((onStore 0 {}).run forsakenStop).get (by decide +kernel)

def forsakenStopped : Cluster :=
  (forsakenStopping.perform (.step (.call 3))).get (by decide +kernel)

/-- The second stop returns while a worker is live and a task is in the channel. The queue runs. -/
theorem not_stopped_of_forsaken :
    (∃ ts, Moments (onStore 0 {}) (⟨forsakenStopping, .step (.call 3), forsakenStopped⟩ :: ts)
        forsakenStopped ∧
      Moment.StopReturns 0 3 ⟨forsakenStopping, .step (.call 3), forsakenStopped⟩ ∧
      ¬Stopped 0 (⟨forsakenStopping, .step (.call 3), forsakenStopped⟩ :: ts) forsakenStopped) ∧
    forsakenStopped.isRunning 0 = true ∧ forsakenStopped.runs.map Run.isLive = [true] ∧
    forsakenStopped.buffered.map Claim.id = ["y"] ∧ forsakenStopped.pending "q" = [] := by
  have moments := Moments.of_run .refl
    (show (onStore 0 {}).run forsakenStop = some forsakenStopping from (Option.some_get _).symm)
  have whole := moments.perform
    (show forsakenStopping.perform (.step (.call 3)) = some forsakenStopped from
      (Option.some_get _).symm)
  have running : forsakenStopped.isRunning 0 = true := by decide +kernel
  refine ⟨⟨_, whole, ⟨rfl, by decide +kernel, by decide +kernel⟩, fun stopped => ?_⟩, running, ?_⟩
  · rw [stopped.idle] at running
    cases running
  · decide +kernel

end Cluster

end ReliableQueue.Queue
