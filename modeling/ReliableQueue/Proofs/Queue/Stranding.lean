import ReliableQueue.Proofs.Queue.Drain
import ReliableQueue.Proofs.Queue.Turns

/-!
What becomes of a handle whose stop is given up once it is under way. The stop has taken the run,
so no other stop finds it, and the handle counts as running for good. Unless that happens, the
channel of a run is kept while its handle or a stop has it.
-/

namespace ReliableQueue

/-- A token that has a number of its own can be cancelled. -/
theorem Cancellation.isCancelled_cancel (c : Cancellation) {t : Token} (own : t.lineage ≠ []) :
    (c.cancel t).isCancelled t = true := by
  obtain ⟨n, rest, lineage⟩ := List.exists_cons_of_ne_nil own
  rw [isCancelled, cancel, lineage]
  refine List.any_eq_true.mpr ⟨n, List.mem_cons_self, ?_⟩
  show List.contains (if n ∈ c.cancelled then c else _).cancelled n = true
  split
  · next before => exact List.contains_iff_mem.mpr before
  · exact List.contains_iff_mem.mpr List.mem_cons_self

namespace Queue

variable {i k n : Nat} {a : Act} {c d : Cluster} {q r : Run} {epoch : Nat} {m : Store.Memory}
  {ok : Cluster → Act → Prop}

namespace Cluster

/-! ### Tokens of runs -/

/-- Every run has a token of its own. -/
def Rooted (c : Cluster) : Prop :=
  ∀ (n : Nat) (r : Run), c.runs[n]? = some r → r.token.lineage ≠ []

theorem rooted_of_reaches (hr : Reaches ok (onStore epoch m) c) : c.Rooted := by
  refine hr.invariant (by simp [Rooted, onStore]) fun b a d rooted _ hp n r hr => ?_
  rcases run_or_launches hp hr with ⟨q, hq, token⟩ | ⟨parent, launches⟩
  · rw [token]
    exact rooted n q hq
  · simp [(token_of_launches hp launches).1, Cancellation.child]

/-! ### Handles that are left as if they ran -/

/-- Handle `i` counts as running, but no stop will find a run to end. -/
def Stranded (i : Nat) (c : Cluster) : Prop :=
  ∃ h, c.handles[i]? = some h ∧ h.lock = none ∧ h.runtime = none ∧ h.running = true

theorem Stranded.isRunning (stranded : Stranded i c) : c.isRunning i = true := by
  obtain ⟨h, hh, -, -, running⟩ := stranded
  exact (isRunning_of_handle hh).trans running

/-- No stop of the handle is under way. -/
theorem Stranded.free (stranded : Stranded i c) (standing : Standing True i c) {call : Call}
    (hc : c.calls[n]? = some call) (own : call.handle = i) : call.stage.stopping? = none := by
  obtain ⟨h, hh, lock, -⟩ := stranded
  refine Option.eq_none_iff_forall_ne_some.mpr fun k stops => ?_
  obtain ⟨h', r, under⟩ := standing.stopping_of hc own stops
  obtain rfl := Option.some.inj (hh.symm.trans under.handle)
  rw [under.lock] at lock
  cases lock

theorem Stranded.perform (stranded : Stranded i c) (standing : Standing True i c)
    (h : c.perform a = some d) : Stranded i d := by
  obtain ⟨hd, hh, lock, runtime, running⟩ := stranded
  have same (handle : d.handles[i]? = c.handles[i]?) : Stranded i d :=
    ⟨hd, handle.trans hh, lock, runtime, running⟩
  have other {j : Nat} {h' : Handle} (foreign : j ≠ i) (handles : d.handles = c.handles.set j h') :
      Stranded i d := same (handle_set_other foreign handles)
  rcases steady_or_turning h with steady | turn
  · obtain ⟨h', hh', alike⟩ := steady.handles.on i hd hh
    exact ⟨h', hh', alike.lock.trans lock, alike.runtime.trans runtime,
      alike.running.trans running⟩
  · cases turn with
    | launched _ call h' _ _ _ handle _ idle _ _ handles =>
        refine other (fun own => ?_) handles
        obtain rfl := Option.some.inj (hh.symm.trans (own ▸ handle))
        rw [running] at idle
        cases idle
    | taken _ _ call h' _ _ _ handle _ found _ _ handles =>
        refine other (fun own => ?_) handles
        obtain rfl := Option.some.inj (hh.symm.trans (own ▸ handle))
        rw [runtime] at found
        cases found
    | went _ _ _ _ _ _ _ _ handles => exact same (by rw [handles])
    | ended s j call h' at_call stage handle runs handles =>
        refine other (fun own => ?_) handles
        have free := Stranded.free ⟨hd, hh, lock, runtime, running⟩ standing at_call own
        rw [stage] at free
        cases free
    | forsaken s j call act at_call stops runs handles =>
        rcases Decidable.em (call.handle = i) with own | foreign
        · refine ⟨{ hd with lock := none }, ?_, rfl, runtime, running⟩
          rw [handles, own, List.getElem?_modify, hh]
          simp
        · exact same (by rw [handles, List.getElem?_modify]; simp [foreign])
    | disposed j k h' r handle unused found run runs handles =>
        refine other (fun own => ?_) handles
        obtain rfl := Option.some.inj (hh.symm.trans (own ▸ handle))
        rw [runtime] at found
        cases found

/-- A stop that is given up once it is under way strands its handle. -/
theorem stranded_of_abandon (standing : Standing True i c) {call : Call}
    (hc : c.calls[n]? = some call) (own : call.handle = i) (stops : call.stage.stopping? = some k) :
    Stranded i (c.abandon n) := by
  obtain ⟨h, r, under⟩ := standing.stopping_of hc own stops
  have unlocked : (c.abandon n).handles = c.handles.modify i ({ · with lock := none }) := by
    cases stage : call.stage with
    | joining | draining | releasing => simp [abandon, hc, stage, own, Stage.isLive]
    | _ =>
        rw [stage] at stops
        cases stops
  refine ⟨{ h with lock := none }, ?_, rfl, under.runtime, under.running⟩
  rw [unlocked, List.getElem?_modify, under.handle]
  simp

/-- The runs of handle `i` are safe. -/
def SafeRuns (i : Nat) (c : Cluster) : Prop :=
  ∀ (n : Nat) (r : Run), c.runs[n]? = some r → r.handle = i → r.Safe

theorem SafeRuns.kept (safe : SafeRuns i c) (runs : c.RunsKept d) : SafeRuns i d := by
  intro n r hr own
  obtain ⟨q, hq, on⟩ := runs.on.back runs.length hr
  exact (safe n q hq (on.handle.symm.trans own)).imp (runs.kept n q r hq hr) on.spent

/-- The channel of a run that is over, or of another handle, is let go. -/
theorem SafeRuns.letGo (safe : SafeRuns i c) (runs : d.runs = (c.letGo k).runs)
    (gone : ∀ r, c.runs[k]? = some r → r.handle = i → r.Spent) : SafeRuns i d := by
  intro n r hr own
  rw [runs] at hr
  rcases Decidable.em (k = n) with rfl | apart
  · obtain ⟨q, hq, on⟩ := (c.runsGoOn_letGo k).back (c.length_letGo k) hr
    exact .inr (on.spent (gone q hq (on.handle.symm.trans own)))
  · rw [c.runs_letGo_other apart] at hr
    exact safe n r hr own

/-- Unless a handle is stranded, the channels of its runs are at hand until the runs are over. -/
theorem stranded_or_safe (hr : Reaches ok (onStore epoch m) c) (i : Nat) :
    Stranded i c ∨ SafeRuns i c := by
  induction hr with
  | refl => exact .inr (by simp [SafeRuns, onStore])
  | @perform c d a hr allowed hp ih =>
      have standing := anyhow_of_reaches hr
      rcases ih with stranded | safe
      · exact .inl (stranded.perform (standing i) hp)
      · rcases steady_or_turning hp with steady | turn
        · exact .inr (safe.kept steady.runs)
        · cases turn with
          | launched _ _ _ q _ _ _ _ _ fresh runs =>
              refine .inr fun n r hr own => ?_
              rw [runs] at hr
              rcases getElem?_concat_cases hr with ⟨-, rfl⟩ | hr
              · exact .inl fresh.kept
              · exact safe n r hr own
          | taken _ _ _ _ _ _ _ _ _ _ _ runs => exact .inr fun n r hr => safe n r (runs ▸ hr)
          | went _ _ _ _ _ _ _ runs => exact .inr (safe.kept runs)
          | ended s k call h at_call stage handle runs =>
              refine .inr (safe.letGo runs fun r hr' own => ?_)
              obtain ⟨r', run, ends⟩ := awaited_of_reaches hr s k call at_call (by rw [stage]; rfl)
              obtain rfl := Option.some.inj (run.symm.trans hr')
              rw [stage] at ends
              exact ends.2
          | forsaken s k call act at_call stops runs =>
              subst act
              cases hp
              rcases Decidable.em (call.handle = i) with own | foreign
              · exact .inl (stranded_of_abandon (standing i) at_call own stops)
              · obtain ⟨h, q, under⟩ := (standing call.handle).stopping_of at_call rfl stops
                refine .inr (safe.letGo runs fun r run own => ?_)
                obtain rfl := Option.some.inj (run.symm.trans under.run)
                exact (foreign (under.own.symm.trans own)).elim
          | disposed j k h q handle unused runtime run runs handles =>
              obtain ⟨q', going⟩ := (standing j).active_of handle runtime
              rcases Decidable.em (j = i) with rfl | foreign
              · exact .inl ⟨_, handle_set_own handle handles, going.lock, rfl, going.running⟩
              · refine .inr (safe.letGo runs fun r run own => ?_)
                obtain rfl := Option.some.inj (run.symm.trans going.run)
                exact (foreign (going.own.symm.trans own)).elim

end Cluster

end Queue

end ReliableQueue
