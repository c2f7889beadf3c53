import ReliableQueue.Proofs.Queue.Steps

/-!
What acts do to handles, sweepers and calls. A handle keeps its name, and only its owner gives it
up. Until it is over, a call is under way for the request that it was made with.
-/

namespace ReliableQueue.Queue

/-- What a call that is under way was made for. -/
def Stage.request? : Stage → Option Request
  | entering request => some request
  | joining .. | draining _ | releasing .. => some .stop
  | recovering maxAge _ => some (.recover maxAge)
  | finished .. | dropped => none

namespace Cluster

variable {name : String} {a : Act} {c d : Cluster}

/-! ### Handles -/

/-- What an act does to the handles. -/
inductive HandleChange (a : Act) (c d : Cluster) : Prop where
  | same (handles : d.handles = c.handles)
  | set (i : Nat) (h h' : Handle) (handle : c.handles[i]? = some h)
      (handles : d.handles = c.handles.set i h') (name : h'.name = h.name)
      (owned : h'.owned = h.owned ∨ a = .drop i)
  | built (name : String) (options : Options) (act : a = .build name options)
      (handles : d.handles = c.handles ++ [({ name, options } : Handle)])

theorem HandleChange.modify {i : Nat} {f : Handle → Handle}
    (handles : d.handles = c.handles.modify i f) (name : ∀ h, (f h).name = h.name)
    (owned : ∀ h, (f h).owned = h.owned ∨ a = .drop i) : HandleChange a c d := by
  cases at_i : c.handles[i]? with
  | none => exact .same (handles.trans (List.modify_eq_self (List.getElem?_eq_none_iff.mp at_i)))
  | some h =>
      exact .set i h (f h) at_i (handles.trans (modify_of_getElem? at_i f)) (name h) (owned h)

theorem handles_call {n : Nat} (h : c.stepCall n = some d) : HandleChange a c d := by
  obtain ⟨call, hd, -, hh, step⟩ := stepCall_cases h
  cases step with
  | entered request stage entry =>
      cases entry with
      | answered _ _ _ eq | pushed _ _ _ _ _ eq | recovering _ _ _ eq =>
          exact .same (by rw [eq]; rfl)
      | launched _ _ _ _ eq | taken _ _ _ _ _ _ eq =>
          subst eq
          exact .set call.handle hd _ hh rfl rfl (.inl rfl)
  | joined _ _ _ _ _ _ _ _ eq | drained _ _ _ _ eq | released _ _ _ _ eq
  | recovered _ _ _ _ _ _ _ eq => exact .same (by rw [eq]; rfl)
  | ended i stage eq =>
      refine .set call.handle hd { hd with running := false, lock := none } hh ?_ rfl (.inl rfl)
      rw [eq, handles_record, handles_setCall, setHandle, handles_letGo]

theorem handles_of_perform (h : c.perform a = some d) : HandleChange a c d := by
  cases a with
  | step p =>
      cases p with
      | fetcher run =>
          obtain ⟨r, hd, m, -, -, -, rfl⟩ := stepFetcher_cases h
          exact .same rfl
      | worker run index =>
          obtain ⟨r, hd, w, m, -, -, -, -, rfl⟩ := stepWorker_cases h
          exact .same rfl
      | call index => exact handles_call h
      | sweeper index =>
          obtain ⟨s, hd, stage, memory, es, -, -, -, -, rfl⟩ := stepSweeper_cases h
          exact .same rfl
      | disposal i =>
          obtain ⟨hd, hh, -, ⟨-, rfl⟩ | ⟨run, r, -, -, rfl⟩⟩ := stepDisposal_cases h
          · exact .set i hd _ hh rfl rfl (.inl rfl)
          · exact .set i hd _ hh (handles_letGo _ run) rfl (.inl rfl)
  | executorReturns i j result =>
      obtain ⟨r, hd, w, m, -, -, -, -, rfl⟩ := executorReturns_cases h
      exact .same rfl
  | build name options =>
      obtain rfl := build_of_perform h
      exact .built name options rfl rfl
  | invoke i request =>
      obtain ⟨-, rfl⟩ := invoke_of_perform h
      exact .same rfl
  | sweep i t config =>
      rcases sweep_of_perform h with rfl | rfl
      all_goals exact .same rfl
  | abandon n =>
      cases h
      rcases c.abandon_cases n with eq | ⟨call, -, ⟨-, eq⟩ | ⟨i, -, eq⟩⟩
      · exact .same (by rw [eq])
      · exact .same (by rw [eq]; rfl)
      · refine .modify (i := call.handle) (f := ({ · with lock := none })) ?_ (fun _ => rfl)
          fun _ => .inl rfl
        rw [eq, handles_record, handles_letGo]
  | drop i =>
      cases h
      exact .modify rfl (fun _ => rfl) fun _ => .inr rfl
  | newToken | cancel t | failNext point count | elapse t =>
      cases h
      exact .same rfl

/-- What a handle has from the start and keeps, all handles have. -/
theorem HandleChange.all {P : Handle → Prop} (change : HandleChange a c d)
    (keeps : ∀ h h' : Handle, h'.name = h.name → (h'.owned = h.owned ∨ ∃ i, a = .drop i) →
      P h → P h')
    (first : ∀ name options, a = .build name options → P ({ name, options } : Handle))
    (all : ∀ h ∈ c.handles, P h) : ∀ h ∈ d.handles, P h := by
  intro h' hh
  cases change with
  | same handles => exact all h' (handles ▸ hh)
  | set i h k handle handles name owned =>
      rw [handles] at hh
      rcases List.mem_or_eq_of_mem_set hh with old | rfl
      · exact all h' old
      · exact keeps h h' name (owned.imp_right fun act => ⟨i, act⟩)
          (all h (List.mem_of_getElem? handle))
  | built name options act handles =>
      rw [handles] at hh
      rcases List.mem_append.mp hh with old | new
      · exact all h' old
      · obtain rfl := List.mem_singleton.mp new
        exact first name options act

/-- All handles are for the queue stored under `name`. -/
def Named (name : String) (c : Cluster) : Prop := ∀ h ∈ c.handles, h.name = name

theorem Named.keys {i : Nat} {h : Handle} (hn : c.Named name) (hh : c.handles[i]? = some h) :
    h.keys = .ofName name := by
  rw [Handle.keys, hn h (List.mem_of_getElem? hh)]

theorem Named.perform (hn : c.Named name) (ok : OnQueue name c a) (h : c.perform a = some d) :
    d.Named name := by
  refine (handles_of_perform h).all (fun h h' same _ named => same.trans named) ?_ hn
  rintro n options rfl
  exact ok

theorem named_empty (name : String) (epoch : Nat) : (empty epoch).Named name := by
  simp [Named, empty]

theorem Named.of_reaches {ok : Cluster → Act → Prop} (named : c.Named name) (h : Reaches ok c d)
    (one : ∀ c a, ok c a → OnQueue name c a) : d.Named name :=
  h.invariant named fun _ _ _ hn ok hp => hn.perform (one _ _ ok) hp

theorem named_of_reaches {ok : Cluster → Act → Prop} {epoch : Nat}
    (one : ∀ c a, ok c a → OnQueue name c a) (h : Reaches ok (empty epoch) c) : c.Named name :=
  (named_empty name epoch).of_reaches h one

/-! ### Calls -/

/-- What an act does to the calls. -/
inductive CallChange (a : Act) (c d : Cluster) : Prop where
  | same (calls : d.calls = c.calls)
  | set (n : Nat) (call : Call) (s : Stage) (at_call : c.calls[n]? = some call)
      (act : a = .step (.call n) ∨ a = .abandon n)
      (calls : d.calls = c.calls.set n ⟨call.handle, s⟩)
      (request : s.request? = none ∨ s.request? = call.stage.request?)
  | made (i : Nat) (request : Request) (act : a = .invoke i request) (owned : c.isOwned i = true)
      (calls : d.calls = c.calls ++ [⟨i, .entering request⟩])

theorem calls_of_stepCall {n : Nat} (h : c.stepCall n = some d) :
    ∃ call s, c.calls[n]? = some call ∧ d.calls = c.calls.set n ⟨call.handle, s⟩ ∧
      (s.request? = none ∨ s.request? = call.stage.request?) := by
  obtain ⟨call, hd, hc, -, step⟩ := stepCall_cases h
  refine ⟨call, ?_⟩
  cases step with
  | entered request stage entry =>
      rw [stage]
      cases entry with
      | answered _ _ _ eq | pushed _ _ _ _ _ eq | launched _ _ _ _ eq =>
          subst eq
          exact ⟨_, hc, calls_setCall_of rfl hc _, .inl rfl⟩
      | taken _ _ asked _ _ _ eq | recovering _ asked _ eq =>
          subst eq asked
          exact ⟨_, hc, calls_setCall_of rfl hc _, .inr rfl⟩
  | joined i loop r next panicked stage run after eq =>
      subst eq
      refine ⟨next, hc, calls_setCall_of rfl hc _, .inr ?_⟩
      rcases after with rfl | ⟨rfl, -⟩ <;> rw [stage] <;> rfl
  | drained _ _ stage _ eq | released _ _ _ stage eq =>
      subst eq
      exact ⟨_, hc, calls_setCall_of rfl hc _, .inr (by rw [stage]; rfl)⟩
  | recovered maxAge recovery o memory es stage step eq =>
      subst eq
      refine ⟨_, hc, calls_setCall_of rfl hc _, ?_⟩
      rw [stage]
      rcases o with recovery | (e | count)
      · exact .inr rfl
      · exact .inl rfl
      · exact .inl rfl
  | ended i stage eq =>
      subst eq
      exact ⟨_, hc, calls_ended hc _ _, .inl rfl⟩

theorem calls_of_perform (h : c.perform a = some d) : CallChange a c d := by
  cases a with
  | step p =>
      cases p with
      | call n =>
          obtain ⟨call, s, hc, calls, request⟩ := calls_of_stepCall h
          exact .set n call s hc (.inl rfl) calls request
      | fetcher run =>
          obtain ⟨r, hd, m, -, -, -, rfl⟩ := stepFetcher_cases h
          exact .same rfl
      | worker run index =>
          obtain ⟨r, hd, w, m, -, -, -, -, rfl⟩ := stepWorker_cases h
          exact .same rfl
      | sweeper index =>
          obtain ⟨s, hd, stage, memory, es, -, -, -, -, rfl⟩ := stepSweeper_cases h
          exact .same rfl
      | disposal i =>
          obtain ⟨hd, -, -, ⟨-, rfl⟩ | ⟨run, r, -, -, rfl⟩⟩ := stepDisposal_cases h
          · exact .same rfl
          · exact .same (by rw [calls_letGo]; rfl)
  | executorReturns i j result =>
      obtain ⟨r, hd, w, m, -, -, -, -, rfl⟩ := executorReturns_cases h
      exact .same rfl
  | build name options =>
      obtain rfl := build_of_perform h
      exact .same rfl
  | invoke i request =>
      obtain ⟨owned, rfl⟩ := invoke_of_perform h
      exact .made i request rfl owned rfl
  | sweep i t config =>
      rcases sweep_of_perform h with rfl | rfl
      all_goals exact .same rfl
  | abandon n =>
      cases h
      rcases c.abandon_cases n with eq | ⟨call, hc, ⟨-, eq⟩ | ⟨i, -, eq⟩⟩
      · exact .same (by rw [eq])
      · exact .set n call .dropped hc (.inr rfl) (by rw [eq, calls_setCall hc]) (.inl rfl)
      · refine .set n call .dropped hc (.inr rfl) ?_ (.inl rfl)
        rw [eq, calls_record, calls_letGo]
        exact calls_setCall hc _
  | drop i | newToken | cancel t | failNext point count | elapse t =>
      cases h
      exact .same rfl

/-- Only its own step or whoever gives it up changes a call. -/
theorem CallChange.kept {n : Nat} {call : Call} (change : CallChange a c d)
    (hc : c.calls[n]? = some call) :
    d.calls[n]? = some call ∨ a = .step (.call n) ∨ a = .abandon n := by
  cases change with
  | same calls => exact .inl (calls ▸ hc)
  | set m other s at_call act calls =>
      rcases Decidable.em (m = n) with rfl | apart
      · exact .inr act
      · exact .inl (by rw [calls, List.getElem?_set_ne apart, hc])
  | made i request act owned calls =>
      exact .inl (calls ▸ getElem?_concat_of hc _)

/-- Every call under way is on a handle and for a request such that `P`. -/
def Asks (P : Nat → Request → Prop) (c : Cluster) : Prop :=
  ∀ call ∈ c.calls, ∀ request, call.stage.request? = some request → P call.handle request

theorem Asks.perform {P : Nat → Request → Prop} (asks : c.Asks P) (h : c.perform a = some d)
    (new : ∀ i request, a = .invoke i request → P i request) : d.Asks P := by
  intro call hc request under
  cases calls_of_perform h with
  | same calls => exact asks call (calls ▸ hc) request under
  | set n old s at_call act calls moved =>
      rw [calls] at hc
      rcases List.mem_or_eq_of_mem_set hc with hc | rfl
      · exact asks call hc request under
      · rcases moved with none | same
        · rw [none] at under
          cases under
        · exact asks old (List.mem_of_getElem? at_call) request (same ▸ under)
  | made i asked act owned calls =>
      rw [calls] at hc
      rcases List.mem_append.mp hc with hc | hc
      · exact asks call hc request under
      · obtain rfl := List.mem_singleton.mp hc
        cases under
        exact new i request act

/-! ### Sweepers -/

/-- What an act does to the sweepers. -/
inductive SweeperChange (a : Act) (c d : Cluster) : Prop where
  | same (sweepers : d.sweepers = c.sweepers)
  | moved (k : Nat) (s : Sweeper) (stage : Sweeper.Stage) (at_k : c.sweepers[k]? = some s)
      (sweepers : d.sweepers = c.sweepers.set k { s with stage })
  | added (i : Nat) (t : Token) (config : Sweeper.Config) (h : Handle)
      (act : a = .sweep i t config) (handle : c.handles[i]? = some h)
      (accepted : checkMaxAge h.options config.maxAge = .ok ())
      (sweepers : d.sweepers = c.sweepers ++ [{ handle := i, token := t, config }])

theorem sweepers_call {n : Nat} (h : c.stepCall n = some d) : d.sweepers = c.sweepers := by
  obtain ⟨call, hd, -, -, step⟩ := stepCall_cases h
  cases step with
  | entered request stage entry =>
      cases entry with
      | answered _ _ _ eq | pushed _ _ _ _ _ eq | launched _ _ _ _ eq | taken _ _ _ _ _ _ eq
      | recovering _ _ _ eq =>
          rw [eq]
          rfl
  | joined _ _ _ _ _ _ _ _ eq | drained _ _ _ _ eq | released _ _ _ _ eq
  | recovered _ _ _ _ _ _ _ eq =>
      rw [eq]
      rfl
  | ended i stage eq =>
      rw [eq]
      exact sweepers_letGo c i

theorem sweepers_of_perform (h : c.perform a = some d) : SweeperChange a c d := by
  cases a with
  | step p =>
      cases p with
      | fetcher run =>
          obtain ⟨r, hd, m, -, -, -, rfl⟩ := stepFetcher_cases h
          exact .same rfl
      | worker run index =>
          obtain ⟨r, hd, w, m, -, -, -, -, rfl⟩ := stepWorker_cases h
          exact .same rfl
      | call index => exact .same (sweepers_call h)
      | sweeper index =>
          obtain ⟨s, hd, stage, memory, es, hs, -, -, -, rfl⟩ := stepSweeper_cases h
          exact .moved index s stage hs rfl
      | disposal i =>
          obtain ⟨hd, -, -, ⟨-, rfl⟩ | ⟨run, r, -, -, rfl⟩⟩ := stepDisposal_cases h
          · exact .same rfl
          · exact .same (by rw [sweepers_letGo]; rfl)
  | executorReturns i j result =>
      obtain ⟨r, hd, w, m, -, -, -, -, rfl⟩ := executorReturns_cases h
      exact .same rfl
  | build name options =>
      obtain rfl := build_of_perform h
      exact .same rfl
  | invoke i request =>
      obtain ⟨-, rfl⟩ := invoke_of_perform h
      exact .same rfl
  | sweep i t config =>
      rcases sweep_cases h with rfl | ⟨hd, handle, accepted, rfl⟩
      · exact .same rfl
      · exact .added i t config hd rfl handle accepted rfl
  | abandon n =>
      cases h
      rcases c.abandon_cases n with eq | ⟨call, -, ⟨-, eq⟩ | ⟨i, -, eq⟩⟩ <;> rw [eq]
      · exact .same rfl
      · exact .same rfl
      · exact .same (sweepers_letGo _ i)
  | drop i | newToken | cancel t | failNext point count | elapse t =>
      cases h
      exact .same rfl

/-! ### Owners -/

/-- No handle was given up, and nothing sweeps. -/
structure Tended (c : Cluster) : Prop where
  owned : ∀ h ∈ c.handles, h.owned = true
  sweepers : c.sweepers = []

theorem tended_empty (epoch : Nat) : (empty epoch).Tended := by
  constructor <;> simp [empty]

theorem Tended.no_disposal (tended : c.Tended) {i : Nat} : c.stepDisposal i ≠ some d := by
  intro h
  obtain ⟨hd, hh, unused, -⟩ := stepDisposal_cases h
  have given := unused.given
  rw [tended.owned hd (List.mem_of_getElem? hh)] at given
  cases given

theorem owned_perform (owned : ∀ h ∈ c.handles, h.owned = true) (h : c.perform a = some d)
    (keeps : ∀ i, a ≠ .drop i) : ∀ h ∈ d.handles, h.owned = true := by
  refine (handles_of_perform h).all (fun h h' _ owned kept => ?_) (fun _ _ _ => rfl) owned
  rcases owned with same | ⟨i, act⟩
  · exact same.trans kept
  · exact absurd act (keeps i)

theorem Tended.perform (tended : c.Tended) (h : c.perform a = some d)
    (keeps : ∀ i, a ≠ .drop i) (unswept : ∀ i t config, a ≠ .sweep i t config) : d.Tended where
  owned := owned_perform tended.owned h keeps
  sweepers := by
    cases sweepers_of_perform h with
    | same sweepers => exact sweepers.trans tended.sweepers
    | moved k s stage at_k =>
        rw [tended.sweepers] at at_k
        cases at_k
    | added i t config _ act => exact absurd act (unswept i t config)

end Cluster

end ReliableQueue.Queue
