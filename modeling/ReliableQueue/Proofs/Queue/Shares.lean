import ReliableQueue.Proofs.Queue.Flow
import ReliableQueue.Proofs.Queue.Standing

/-!
The share of one handle in a cluster: its runs, the calls on it, and what is recorded for it. An
act moves one run at most, and whatever it tells of tasks it records for the handle of that run.
So a handle for which no claim is recorded has no claimed task, and loses none.
-/

namespace ReliableQueue.Queue

variable {i : Nat} {a : Act} {c d : Cluster}

namespace Run

/-- Nothing that is claimed is in a run. -/
structure Unclaimed (r : Run) : Prop where
  sending : r.sending = []
  working : r.working = []

/-- A run in which no task was claimed has none. -/
theorem Unclaimed.flow {r r' : Run} {es : List Event} (none : r.Unclaimed)
    (flow : ∀ x, Flow x es (r.stock x) (r'.stock x)) (unset : ∀ e ∈ es, e.claimedIds = []) :
    r'.Unclaimed := by
  have empty (x : String) : (r'.sending.map Claim.id).count x = 0 ∧
      (r'.working.map Claim.id).count x = 0 := by
    obtain ⟨-, -, line, work⟩ := flow x
    have claimed : tally Event.claimedIds es x = 0 :=
      tally_eq_zero.mpr fun e he => unset e he ▸ List.not_mem_nil
    simp only [stock, none.sending, none.working, List.map_nil, List.count_nil] at line work
    omega
  have nil {claims : List Claim} (h : ∀ x, (claims.map Claim.id).count x = 0) : claims = [] :=
    List.eq_nil_iff_forall_not_mem.mpr fun claim hc =>
      List.count_eq_zero.mp (h claim.id) (List.mem_map_of_mem hc)
  exact ⟨nil fun x => (empty x).1, nil fun x => (empty x).2⟩

/-- A channel that is emptied and closed has nothing to lose. -/
theorem reap_discard (r : Run) : ({ r with channel := r.channel.discard } : Run).reap =
    ({ r with channel := r.channel.discard }, []) := by
  unfold reap
  split <;> rfl

theorem Unclaimed.buffer {r : Run} (none : r.Unclaimed) : r.channel.buffer = [] :=
  (List.append_eq_nil_iff.mp none.sending).2

end Run

namespace Cluster

/-- The runs of handle `i` and the calls on it. -/
def share (i : Nat) (c : Cluster) : Cluster :=
  { c with
    runs := c.runs.filter (·.handle = i)
    calls := c.calls.filter (·.handle = i) }

/-- All runs of a handle but one are over, so its runs have no more than that one. -/
theorem length_share_le {forsaken : Prop} {β : Type} {f : Run → List β} {bound : Nat}
    (standing : Standing forsaken i c) (idle : ∀ r : Run, r.Spent → f r = [])
    (most : ∀ r ∈ c.runs, r.handle = i → (f r).length ≤ bound) :
    ((c.share i).runs.flatMap f).length ≤ bound := by
  obtain ⟨n, spent⟩ := standing.one
  rw [share, flatMap_filter]
  have others (k : Nat) (q : Run) (hk : k ≠ n) (hq : c.runs[k]? = some q) :
      (if decide (q.handle = i) = true then f q else []) = [] := by
    split
    · next own => exact idle q (spent k q hk hq (of_decide_eq_true own))
    · rfl
  cases run : c.runs[n]? with
  | none =>
      rw [List.flatMap_eq_nil_iff.mpr fun q hq => ?_]
      · exact Nat.zero_le _
      · obtain ⟨k, hk⟩ := List.getElem?_of_mem hq
        refine others k q (fun same => ?_) hk
        rw [same, run] at hk
        cases hk
  | some r =>
      rw [flatMap_of_only run others]
      split
      · next own => exact most r (List.mem_of_getElem? run) (of_decide_eq_true own)
      · exact Nat.zero_le _

theorem mem_share {call : Call} (hc : call ∈ (c.share i).calls) :
    call ∈ c.calls ∧ call.handle = i := by
  simpa [share] using hc

/-- What was lost with channels and stops. -/
def losses (c : Cluster) : List String := c.events.flatMap Event.discardedIds

/-- All claims were made for handle `i`. -/
def SoleClaims (i : Nat) (c : Cluster) : Prop :=
  ∀ record ∈ c.history, record.event.claimedIds ≠ [] → record.handle = i

instance (i : Nat) (c : Cluster) : Decidable (c.SoleClaims i) :=
  inferInstanceAs (Decidable (∀ record ∈ c.history, _))

/-! ### Records -/

/-- Events as they are recorded for handle `j`, latest first. -/
def told (c : Cluster) (j : Nat) (es : List Event) : List Record :=
  (es.map fun event => ⟨c.now, j, event⟩).reverse

theorem history_record (c : Cluster) (j : Nat) (es : List Event) :
    (c.record j es).history = c.told j es ++ c.history := by
  simp [record, told]

theorem events_told (c : Cluster) (j : Nat) (es : List Event) :
    (c.told j es).map Record.event = es.reverse := by
  simp [told, Function.comp_def]

theorem history_settle (c : Cluster) (n : Nat) (r : Run) (sh : Shared) (es : List Event) :
    (c.settle n r sh es).history =
      c.told r.handle (es ++ ({ r with channel := sh.channel }.reap).2) ++ c.history := by
  have same : (c.settle n r sh es).history =
      c.told ({ r with channel := sh.channel }.reap).1.handle
        (es ++ ({ r with channel := sh.channel }.reap).2) ++ c.history := history_record _ _ _
  rw [same, Run.reap_handle]

/-- Why the channel of a run is let go. -/
inductive Released (a : Act) (c : Cluster) (r : Run) : Prop where
  | spent (spent : r.Spent)
  | abandoned (n : Nat) (call : Call) (act : a = .abandon n) (at_call : c.calls[n]? = some call)
      (own : call.handle = r.handle) (stops : call.stage.stopping? ≠ none)
  | disposed (h : Handle) (handle : c.handles[r.handle]? = some h) (unused : c.Unused r.handle h)

/-- An act moves run `n` from `q` to `mid` and tells of it by `es`. The channel of the run goes away
if nobody has it any more, and only what is in it is lost. -/
structure Moving (a : Act) (c d : Cluster) (n : Nat) (q mid : Run) (es : List Event) : Prop where
  run : c.runs[n]? = some q
  on : q.Continues mid
  none : q.Unclaimed → (∀ e ∈ es, e.claimedIds = []) → mid.Unclaimed
  kept : mid.kept = q.kept ∨ Released a c q
  runs : d.runs = c.runs.set n mid.reap.1
  told : ∀ e ∈ es, ⟨c.now, q.handle, e⟩ ∈ d.history
  losses : d.losses = mid.reap.2.reverse.flatMap Event.discardedIds ++ c.losses
  grows : c.history <:+ d.history

/-- What an act does to runs, and what is lost. -/
inductive RunChange (a : Act) (c d : Cluster) : Prop where
  | still (runs : d.runs = c.runs) (losses : d.losses = c.losses) (grows : c.history <:+ d.history)
  | launched (n : Nat) (call : Call) (h : Handle) (r : Run) (at_call : c.calls[n]? = some call)
      (live : call.stage.isLive = true) (fresh : r.Fresh call.handle h.options)
      (none : r.Unclaimed) (runs : d.runs = c.runs ++ [r]) (losses : d.losses = c.losses)
      (grows : c.history <:+ d.history)
  | moved (n : Nat) (q mid : Run) (es : List Event) (moving : Moving a c d n q mid es)

theorem losses_of_lossless {es : List Event} (lossless : Lossless es) :
    es.flatMap Event.discardedIds = [] :=
  List.flatMap_eq_nil_iff.mpr fun e he => by
    cases e with
    | discarded id => exact (lossless id he).elim
    | _ => rfl

/-- What was lost by the end of a history to which events of handle `j` were added. -/
theorem losses_told {j : Nat} {es : List Event} (history : d.history = c.told j es ++ c.history) :
    d.losses = es.reverse.flatMap Event.discardedIds ++ c.losses := by
  simp only [losses, events, history, List.map_append, events_told, List.flatMap_append]

theorem losses_same {j : Nat} {es : List Event} (quiet : Lossless es)
    (history : d.history = c.told j es ++ c.history) : d.losses = c.losses := by
  rw [losses_told history,
    losses_of_lossless fun id lost => quiet id (List.mem_reverse.mp lost), List.nil_append]

/-- A step of a loop moves its run. -/
theorem moved_settle {n : Nat} {r q : Run} {sh : Shared} {es : List Event}
    (run : c.runs[n]? = some r) (on : r.Continues { q with channel := sh.channel })
    (own : q.handle = r.handle) (kept : q.kept = r.kept) (quiet : Lossless es)
    (flow : ∀ x, Flow x es (r.stock x) (Run.stock x { q with channel := sh.channel })) :
    RunChange a c (c.settle n q sh es) := by
  have history := c.history_settle n q sh es
  have backwards : Lossless es.reverse := fun id lost => quiet id (List.mem_reverse.mp lost)
  refine .moved n r { q with channel := sh.channel } es {
    run, on
    none := fun none => none.flow flow
    kept := .inl kept
    runs := runs_settle c n q sh es
    told := fun e he => ?_
    losses := ?_
    grows := ⟨_, history.symm⟩ }
  · rw [history, own]
    simp [told, he]
  · rw [losses_told history, List.reverse_append, List.flatMap_append,
      losses_of_lossless backwards,
      List.append_nil]

theorem history_letGo (c : Cluster) (n : Nat) (q : Run) (run : c.runs[n]? = some q) :
    (c.letGo n).runs = c.runs.set n ({ q with kept := false }.reap).1 ∧
      (c.letGo n).history = c.told q.handle ({ q with kept := false }.reap).2 ++ c.history := by
  simp only [letGo, run]
  exact ⟨runs_settle _ _ _ _ _, history_settle _ _ _ _ _⟩

theorem grows_letGo {b : Cluster} (told : b.history = c.history) (n : Nat) :
    c.history <:+ (b.letGo n).history := by
  cases run : b.runs[n]? with
  | none => exact ⟨[], by simp [letGo, run, told]⟩
  | some q => exact ⟨_, by rw [(b.history_letGo n q run).2, told]⟩

/-- The channel of a run is let go, and `es` are recorded. -/
theorem moved_letGo {b : Cluster} {n j : Nat} {es : List Event} (quiet : Lossless es)
    (before : b.runs = c.runs) (told : b.history = c.history)
    (cause : ∀ q, c.runs[n]? = some q → Released a c q) (runs : d.runs = (b.letGo n).runs)
    (history : d.history = (b.letGo n).told j es ++ (b.letGo n).history) : RunChange a c d := by
  have same : b.losses = c.losses := by rw [losses, losses, events, events, told]
  have after := losses_same quiet history
  cases run : c.runs[n]? with
  | none =>
      have still : b.letGo n = b := by simp [letGo, before, run]
      rw [still] at runs history after
      exact .still (runs.trans before) (after.trans same) ⟨_, by rw [history, told]⟩
  | some q =>
      obtain ⟨runs', history'⟩ := b.history_letGo n q (before ▸ run)
      exact .moved n q { q with kept := false } [] {
        run
        on := Run.continues_unkept q
        none := fun none _ => ⟨none.sending, none.working⟩
        kept := .inr (cause q run)
        runs := runs.trans (before ▸ runs')
        told := fun _ told => absurd told List.not_mem_nil
        losses := by rw [after, losses_told history', same]
        grows := ⟨_, by rw [history, history', told, List.append_assoc]⟩ }

theorem still_same (runs : d.runs = c.runs) (history : d.history = c.history) :
    RunChange a c d :=
  .still runs (by rw [losses, losses, events, events, history]) ⟨[], history.symm⟩

/-- Nothing happens to runs, and what is recorded tells of no loss. -/
theorem still_record {b : Cluster} {j : Nat} {es : List Event} (runs : b.runs = c.runs)
    (history : b.history = c.history) (quiet : Lossless es) : RunChange a c (b.record j es) := by
  have recorded := b.history_record j es
  refine .still runs ?_ ⟨_, by rw [recorded, history]⟩
  rw [losses_same quiet recorded, losses, losses, events, events, history]

theorem runChange_call {n : Nat} (awaited : c.Awaited) (h : c.stepCall n = some d) :
    RunChange a c d := by
  obtain ⟨call, hd, hc, -, step⟩ := stepCall_cases h
  cases step with
  | entered request stage entry =>
      cases entry with
      | answered _ _ _ eq | taken _ _ _ _ _ _ eq | recovering _ _ _ eq =>
          exact eq ▸ still_same rfl rfl
      | pushed tasks some asked memory contents eq =>
          exact eq ▸ still_record rfl rfl (by simp [Lossless])
      | launched parent asked lock running eq =>
          subst eq
          have history : Cluster.history ((c.launch call.handle hd parent).setCall n
              (.finished c.now (.ok .done))) = c.told call.handle
                [.queueStarted hd.options.workers hd.options.bufferSize] ++ c.history :=
            history_record _ _ _
          refine .launched n call hd _ hc (by rw [stage]; rfl) ?_ ?_ rfl
            (losses_same (by simp [Lossless]) history) ⟨_, history.symm⟩
          · exact ⟨rfl, rfl, ⟨List.length_replicate, rfl, Nat.zero_le _⟩⟩
          · exact ⟨rfl, by simp [Run.working, Worker.held?]⟩
  | joined m loop r next panicked stage run after eq =>
      refine eq ▸ still_record rfl rfl ?_
      cases panicked <;> simp [Lossless]
  | drained m r stage run eq =>
      subst eq
      refine .moved m r { r with channel := r.channel.discard } [] {
        run
        on := Run.continues_discard r
        none := fun none _ => ⟨?_, none.working⟩
        kept := .inl rfl
        runs := by rw [Run.reap_discard]; rfl
        told := fun _ told => absurd told List.not_mem_nil
        losses := by rw [Run.reap_discard]; rfl
        grows := ⟨[], rfl⟩ }
      simpa [Run.sending, Channel.discard] using (List.append_eq_nil_iff.mp none.sending).1
  | released m claim rest stage eq =>
      refine eq ▸ still_record rfl rfl ?_
      rcases release_cases hd.keys claim.id c.memory with ⟨told, -⟩ | ⟨cause, told, -⟩ <;>
        simp [told, Lossless]
  | ended m stage eq =>
      refine moved_letGo (b := c) (j := call.handle)
        (show Lossless [.queueStopped] by simp [Lossless]) rfl rfl (fun q run => ?_)
        (by rw [eq]; rfl) (by rw [eq, history_record]; rfl)
      obtain ⟨r, run', ends⟩ := awaited n m call hc (by rw [stage]; rfl)
      obtain rfl := Option.some.inj (run.symm.trans run')
      rw [stage] at ends
      exact .spent ends.2
  | recovered maxAge recovery o memory es stage step eq =>
      exact eq ▸ still_record rfl rfl (lossless_of_recovery step)

/-- A stop that has tasks to release is not given up. -/
theorem runChange_of_perform (h : c.perform a = some d) (awaited : c.Awaited)
    (standing : ∀ j, Standing True j c)
    (kept : ∀ n call, a = .abandon n → c.calls[n]? = some call → call.stage.left = []) :
    RunChange a c d := by
  cases a with
  | step p =>
      cases p with
      | fetcher n =>
          obtain ⟨r, hd, m, hr, -, hm, rfl⟩ := stepFetcher_cases h
          have move := Fetcher.move_of_step rfl hm
          exact moved_settle (q := { r with fetcher := m.loop }) hr
            (Run.continues_fetched rfl (Fetcher.isLive_of_step hm) move) rfl rfl move.lossless
            (Run.flow_fetched rfl move)
      | worker n j =>
          obtain ⟨r, hd, w, m, hr, -, hw, hm, rfl⟩ := stepWorker_cases h
          have move := Worker.move_of_step rfl hm
          exact moved_settle (q := { r with workers := r.workers.set j m.loop }) hr
            (Run.continues_worked rfl hw (Worker.isLive_of_step hm) move) rfl rfl move.lossless
            (Run.flow_worked rfl hw move)
      | call n => exact runChange_call awaited h
      | sweeper n =>
          obtain ⟨s, hd, stage, memory, es, -, -, -, swept, rfl⟩ := stepSweeper_cases h
          exact still_record rfl rfl (lossless_of_sweep swept)
      | disposal j =>
          obtain ⟨hd, hh, unused, ⟨-, rfl⟩ | ⟨m, r, runtime, run, rfl⟩⟩ := stepDisposal_cases h
          · exact still_same rfl rfl
          · refine moved_letGo (n := m) (j := j) lossless_nil ?_ ?_ (fun q hq => ?_)
              rfl rfl
            all_goals try rfl
            obtain ⟨q', going⟩ := (standing j).active_of hh runtime
            obtain rfl := Option.some.inj (hq.symm.trans going.run)
            exact .disposed hd (going.own ▸ hh) (going.own ▸ unused)
  | executorReturns n j result =>
      obtain ⟨r, hd, w, m, hr, -, hw, hm, rfl⟩ := executorReturns_cases h
      have move := Worker.move_of_returns (k := hd.keys) hm
      exact moved_settle (q := { r with workers := r.workers.set j m.loop }) hr
        (Run.continues_worked rfl hw (Worker.isLive_of_returns hm) move) rfl rfl move.lossless
        (Run.flow_worked rfl hw move)
  | build name options =>
      obtain rfl := build_of_perform h
      exact still_same rfl rfl
  | invoke j request =>
      obtain ⟨-, rfl⟩ := invoke_of_perform h
      exact still_same rfl rfl
  | abandon n =>
      cases h
      rcases c.abandon_cases n with eq | ⟨call, hc, ⟨-, eq⟩ | ⟨m, stops, eq⟩⟩
      · exact still_same (by rw [eq]) (by rw [eq])
      · exact still_same (by rw [eq]; rfl) (by rw [eq]; rfl)
      · rw [eq, kept n call rfl hc]
        refine moved_letGo (n := m) (j := call.handle) lossless_nil ?_ ?_
          (fun q hq => ?_) rfl rfl
        all_goals try rfl
        · obtain ⟨hd, r, under⟩ := (standing call.handle).stopping_of hc rfl stops
          obtain rfl := Option.some.inj (hq.symm.trans under.run)
          exact .abandoned n call rfl hc under.own.symm (by simp [stops])
  | sweep j t config =>
      rcases sweep_of_perform h with rfl | rfl
      all_goals exact still_same rfl rfl
  | drop j | newToken | cancel t | failNext point count | elapse t =>
      cases h
      exact still_same rfl rfl

/-- Histories only grow. -/
theorem grows_of_perform (h : c.perform a = some d) (awaited : c.Awaited)
    (standing : ∀ j, Standing True j c) : c.history <:+ d.history := by
  have grows (change : RunChange a c d) : c.history <:+ d.history := by
    cases change with
    | still _ _ grows | launched _ _ _ _ _ _ _ _ _ _ grows => exact grows
    | moved _ _ _ _ moving => exact moving.grows
  cases a with
  | abandon n =>
      cases h
      rcases c.abandon_cases n with eq | ⟨call, -, ⟨-, eq⟩ | ⟨m, -, eq⟩⟩
      · exact ⟨[], (congrArg history eq).symm⟩
      · exact ⟨[], (congrArg history eq).symm⟩
      · rw [eq, history_record]
        refine List.IsSuffix.trans ?_ (List.suffix_append _ _)
        exact grows_letGo (by rfl) m
  | _ => exact grows (runChange_of_perform h awaited standing (by rintro n call ⟨⟩))

theorem SoleClaims.before (sole : d.SoleClaims i) (grows : c.history <:+ d.history) :
    c.SoleClaims i :=
  fun record hr => sole record (grows.subset hr)

/-! ### Other handles -/

/-- Handles other than handle `i` have nothing that is claimed. -/
structure OthersIdle (i : Nat) (c : Cluster) : Prop where
  runs : ∀ r ∈ c.runs, r.handle ≠ i → r.Unclaimed
  calls : ∀ call ∈ c.calls, call.handle ≠ i → call.stage.left = []

theorem OthersIdle.moving {n : Nat} {q mid : Run} {es : List Event} (idle : OthersIdle i c)
    (moving : Moving a c d n q mid es) (sole : d.SoleClaims i) (foreign : q.handle ≠ i) :
    mid.Unclaimed :=
  moving.none (idle.runs q (List.mem_of_getElem? moving.run) foreign) fun e he =>
    Classical.byContradiction fun claimed => foreign (sole _ (moving.told e he) claimed)

theorem OthersIdle.perform (idle : OthersIdle i c) (change : RunChange a c d)
    (standing : ∀ j, Standing True j c) (h : c.perform a = some d) (sole : d.SoleClaims i) :
    OthersIdle i d where
  runs r hr foreign := by
    cases change with
    | still runs => exact idle.runs r (runs ▸ hr) foreign
    | launched n call h q at_call live fresh none runs =>
        rw [runs] at hr
        rcases List.mem_append.mp hr with hr | hr
        · exact idle.runs r hr foreign
        · exact List.mem_singleton.mp hr ▸ none
    | moved n q mid es moving =>
        rw [moving.runs] at hr
        rcases List.mem_or_eq_of_mem_set hr with hr | rfl
        · exact idle.runs r hr foreign
        · rw [Run.reap_handle, moving.on.handle] at foreign
          have mid := idle.moving moving sole foreign
          have sending := List.append_eq_nil_iff.mp mid.sending
          exact ⟨by simp [Run.sending, sending.1, Run.reap_buffer_of_nil sending.2],
            by simpa [Run.working] using mid.working⟩
  calls call hc foreign := by
    obtain ⟨n, at_call⟩ := List.getElem?_of_mem hc
    cases stops : call.stage.stopping? with
    | none => exact Stage.left_of_stopping? stops
    | some k =>
        cases under_of_perform h at_call stops with
        | same old => exact idle.calls call (List.mem_of_getElem? old) foreign
        | taken r run runs stage =>
            rw [stage]
            rfl
        | went old before own stops' runs ends left =>
            rw [← own] at foreign
            rcases left with short | ⟨r, run, taken⟩
            · rw [idle.calls old (List.mem_of_getElem? before) foreign] at short
              exact List.length_eq_zero_iff.mp (Nat.le_zero.mp short)
            · obtain ⟨_, r', under⟩ := (standing old.handle).stopping_of before rfl stops'
              obtain rfl := Option.some.inj (run.symm.trans under.run)
              rw [taken, (idle.runs r (List.mem_of_getElem? run) (under.own ▸ foreign)).buffer]
              rfl

end Cluster

end ReliableQueue.Queue
