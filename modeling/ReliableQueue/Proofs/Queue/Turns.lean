import ReliableQueue.Proofs.Queue.Shares

/-!
Starts and stops of a handle in the order in which they return. A start either appends a run to an
idle handle or is refused and changes nothing, a stop leaves the handle idle, and an act with which
neither returns keeps whether the handle runs.
-/

namespace ReliableQueue.Queue

variable {i : Nat} {a : Act} {b c d : Cluster} {epoch : Nat} {m : Store.Memory}
  {ok : Cluster → Act → Prop}

/-! ### Turns -/

/-- The request is to start or to stop the queue. -/
def Request.isTurn : Request → Bool
  | start _ | stop => true
  | _ => false

/-- What a call has returned. -/
def Stage.result? : Stage → Option (Except Error Reply)
  | finished _ result => some result
  | _ => none

/-- A start or a stop that has returned. -/
structure Turn where
  call : Nat
  request : Request
  result : Except Error Reply

namespace Turn

/-- A start that was not refused. -/
def started (t : Turn) : Bool :=
  match t.request, t.result with
  | .start _, .ok _ => true
  | _, _ => false

/-- A stop that was completed. -/
def stopped (t : Turn) : Bool :=
  match t.request, t.result with
  | .stop, .ok _ => true
  | _, _ => false

theorem not_stopped_of_started {t : Turn} (h : t.started = true) : t.stopped = false := by
  obtain ⟨n, request, result⟩ := t
  cases request <;> first | rfl | cases h

end Turn

/-- Every start that was not refused was followed by a stop; the turns are latest first. -/
def Rested (ts : List Turn) : Prop :=
  ∀ later s earlier, ts = later ++ s :: earlier → s.started = true →
    ∃ t ∈ later, t.stopped = true

theorem rested_cons (t : Turn) (ts : List Turn) :
    Rested (t :: ts) ↔ t.stopped = true ∨ t.started = false ∧ Rested ts := by
  constructor
  · intro rested
    have idle : t.started = false := Bool.eq_false_iff.mpr fun started => by
      obtain ⟨s, none, -⟩ := rested [] t ts rfl started
      cases none
    cases stopped : t.stopped with
    | true => exact .inl rfl
    | false =>
        refine .inr ⟨idle, fun later s earlier split started => ?_⟩
        obtain ⟨u, hu, stop⟩ := rested (t :: later) s earlier (by rw [split]; rfl) started
        rcases List.mem_cons.mp hu with rfl | hu
        · rw [stopped] at stop
          cases stop
        · exact ⟨u, hu, stop⟩
  · rintro h later s earlier split started
    cases later with
    | nil =>
        cases split
        rcases h with stop | ⟨idle, -⟩
        · rw [Turn.not_stopped_of_started started] at stop
          cases stop
        · rw [started] at idle
          cases idle
    | cons u later =>
        cases split
        rcases h with stop | ⟨-, rested⟩
        · exact ⟨t, List.mem_cons_self, stop⟩
        · obtain ⟨u, hu, stop⟩ := rested later s earlier rfl started
          exact ⟨u, List.mem_cons_of_mem t hu, stop⟩

/-- A turn that comes after others answers as if it were made after them. -/
structure Turn.Lawful (t : Turn) (earlier : List Turn) : Prop where
  start : ∀ parent, t.request = .start parent →
    Rested earlier ∧ t.result = .ok .done ∨
      ¬Rested earlier ∧ t.result = .error .alreadyRunning
  stop : t.request = .stop → t.result = .ok .done

namespace Cluster

def isRunning (i : Nat) (c : Cluster) : Bool := (c.handles[i]?).any Handle.running

/-- The start or stop of handle `i` that returns as an act takes `c` to `d`. -/
def turn? (i : Nat) (c d : Cluster) : Act → Option Turn
  | .step (.call n) => do
      let call ← c.calls[n]?
      let request ← call.stage.request?
      let after ← d.calls[n]?
      let result ← after.stage.result?
      if call.handle = i && request.isTurn then some ⟨n, request, result⟩ else none
  | _ => none

/-- A run and the turns of handle `i` in it, latest first. -/
inductive Turns (ok : Cluster → Act → Prop) (i : Nat) (c : Cluster) : List Turn → Cluster → Prop
  where
  | refl : Turns ok i c [] c
  | perform {ts : List Turn} {d e : Cluster} {a : Act} :
      Turns ok i c ts d → ok d a → d.perform a = some e →
        Turns ok i c ((turn? i d e a).toList ++ ts) e

theorem Turns.reaches {ts : List Turn} (h : Turns ok i c ts d) : Reaches ok c d := by
  induction h with
  | refl => exact .refl
  | perform _ allowed hp ih => exact .perform ih allowed hp

/-- Every run has its turns. -/
theorem Reaches.turns (h : Reaches ok c d) (i : Nat) : ∃ ts, Turns ok i c ts d := by
  induction h with
  | refl => exact ⟨[], .refl⟩
  | perform _ allowed hp ih =>
      obtain ⟨ts, turns⟩ := ih
      exact ⟨_, .perform turns allowed hp⟩

/-- The turns of handle `i` in a sequence of acts, before those of `ts`. -/
def turnsOf (i : Nat) (c : Cluster) (ts : List Turn) : List Act → List Turn
  | [] => ts
  | a :: rest =>
      match c.perform a with
      | none => ts
      | some d => turnsOf i d ((turn? i c d a).toList ++ ts) rest

theorem Turns.of_run {ts : List Turn} {acts : List Act} (h : Turns ok i b ts c)
    (allowed : ∀ a ∈ acts, ∀ c, ok c a) (run : c.run acts = some d) :
    Turns ok i b (turnsOf i c ts acts) d := by
  induction acts generalizing c ts with
  | nil =>
      cases run
      exact h
  | cons a rest ih =>
      obtain ⟨e, hp, run⟩ := Option.bind_eq_some_iff.mp run
      rw [turnsOf, hp]
      exact ih (.perform h (allowed a List.mem_cons_self c) hp)
        (fun a' ha' => allowed a' (List.mem_cons_of_mem a ha')) run

/-- A start or a stop returns by a step of its own. -/
theorem act_of_turn {t : Turn} (turn : turn? i c d a = some t) : ∃ n, a = .step (.call n) := by
  unfold turn? at turn
  split at turn
  · exact ⟨_, rfl⟩
  · cases turn

theorem turn?_eq_some {n : Nat} {t : Turn} :
    turn? i c d (.step (.call n)) = some t ↔
      ∃ call after request result, c.calls[n]? = some call ∧ call.stage.request? = some request ∧
        d.calls[n]? = some after ∧ after.stage.result? = some result ∧ call.handle = i ∧
        request.isTurn = true ∧ t = ⟨n, request, result⟩ := by
  simp only [turn?, Option.bind_eq_bind, Option.bind_eq_some_iff]
  constructor
  · rintro ⟨call, hc, request, asked, after, hd, result, returned, h⟩
    split at h
    · next own =>
        simp only [Bool.and_eq_true, decide_eq_true_eq] at own
        exact ⟨call, after, request, result, hc, asked, hd, returned, own.1, own.2,
          (Option.some.inj h).symm⟩
    · cases h
  · rintro ⟨call, after, request, result, hc, asked, hd, returned, own, turn, rfl⟩
    exact ⟨call, hc, request, asked, after, hd, result, returned, by simp [own, turn]⟩

theorem Stage.not_returned {s : Stage} {request : Request} {result : Except Error Reply}
    (asked : s.request? = some request) (returned : s.result? = some result) : False := by
  cases s with
  | finished => cases asked
  | _ => cases returned

/-- No start or stop returns that is not in the turns. -/
theorem turn?_of_returned {n : Nat} {call after : Call} {request : Request}
    {result : Except Error Reply} (h : c.perform a = some d) (hc : c.calls[n]? = some call)
    (own : call.handle = i) (asked : call.stage.request? = some request)
    (turn : request.isTurn = true) (hd : d.calls[n]? = some after)
    (returned : after.stage.result? = some result) :
    turn? i c d a = some ⟨n, request, result⟩ := by
  rcases (calls_of_perform h).kept hc with same | rfl | rfl
  · obtain rfl := Option.some.inj (same.symm.trans hd)
    exact (Stage.not_returned asked returned).elim
  · exact turn?_eq_some.mpr
      ⟨call, after, request, result, hc, asked, hd, returned, own, turn, rfl⟩
  · -- A call that is given up does not return.
    cases h
    obtain ⟨hn, -⟩ := List.getElem?_eq_some_iff.mp hc
    have dropped (calls : (c.abandon n).calls = c.calls.set n ⟨call.handle, .dropped⟩) : False := by
      rw [calls, List.getElem?_set_self hn] at hd
      cases hd
      cases returned
    rcases c.abandon_cases n with eq | ⟨call', hc', ⟨-, eq⟩ | ⟨m, -, eq⟩⟩
    · rw [eq, hc] at hd
      cases hd
      exact (Stage.not_returned asked returned).elim
    · obtain rfl := Option.some.inj (hc.symm.trans hc')
      exact (dropped (by rw [eq, calls_setCall hc])).elim
    · obtain rfl := Option.some.inj (hc.symm.trans hc')
      refine (dropped ?_).elim
      rw [eq, calls_record, calls_letGo]
      exact calls_setCall hc _

/-! ### Answers -/

theorem length_share_same (handles : d.runs.map Run.handle = c.runs.map Run.handle) :
    (d.share i).runs.length = (c.share i).runs.length := by
  have count (b : Cluster) : (b.share i).runs.length = (b.runs.map Run.handle).count i := by
    rw [share, List.count, List.countP_map, List.countP_eq_length_filter]
    rfl
  rw [count, count, handles]

theorem handles_of_goesOn (on : c.RunsGoOn d) (length : d.runs.length = c.runs.length) :
    d.runs.map Run.handle = c.runs.map Run.handle := by
  refine List.ext_getElem? fun n => ?_
  rw [List.getElem?_map, List.getElem?_map]
  cases hr : c.runs[n]? with
  | none =>
      rw [List.getElem?_eq_none (length ▸ List.getElem?_eq_none_iff.mp hr)]
  | some r =>
      obtain ⟨r', hr', on⟩ := on n r hr
      rw [hr']
      exact congrArg some on.handle

/-- How a start or a stop of handle `i` returns, in the step that takes `c` to `d`. -/
inductive Answer (i : Nat) (c d : Cluster) (t : Turn) : Prop where
  | started (parent : Token) (request : t.request = .start parent) (result : t.result = .ok .done)
      (idle : c.isRunning i = false) (running : d.isRunning i = true) (r : Run)
      (own : r.handle = i) (runs : d.runs = c.runs ++ [r])
  | refused (parent : Token) (request : t.request = .start parent)
      (result : t.result = .error .alreadyRunning) (running : c.isRunning i = true)
      (same : d = c.setCall t.call (.finished c.now (.error .alreadyRunning)))
  | stopped (request : t.request = .stop) (result : t.result = .ok .done)
      (idle : d.isRunning i = false) (runs : d.runs.map Run.handle = c.runs.map Run.handle)

theorem isRunning_of_handle {h : Handle} (handle : c.handles[i]? = some h) :
    c.isRunning i = h.running := by
  rw [isRunning, handle]
  rfl

/-- A handle that neither is locked nor has a run does not run, if a call on it is under way. -/
theorem Standing.rest_of {h : Handle} {n : Nat} {call : Call} (standing : Standing False i c)
    (handle : c.handles[i]? = some h) (lock : h.lock = none) (runtime : h.runtime = none)
    (hc : c.calls[n]? = some call) (own : call.handle = i) (live : call.stage.isLive = true) :
    h.running = false := by
  cases standing with
  | quiescent rest => exact (rest.handle h handle).running
  | active k m r going =>
      obtain rfl := Option.some.inj (handle.symm.trans going.handle)
      rw [going.runtime] at runtime
      cases runtime
  | stopping k m r stop s under =>
      obtain rfl := Option.some.inj (handle.symm.trans under.handle)
      rw [under.lock] at lock
      cases lock
  | deserted k m r left =>
      obtain ⟨-, deaf⟩ := left.cause.resolve_left id
      rw [deaf n call hc own] at live
      cases live

theorem answer_of_turn {t : Turn} (h : c.perform a = some d) (standing : Standing False i c)
    (turn : turn? i c d a = some t) : Answer i c d t := by
  obtain ⟨n, rfl⟩ := act_of_turn turn
  obtain ⟨call, after, request, result, hc, asked, hd, returned, own, isTurn, rfl⟩ :=
    turn?_eq_some.mp turn
  obtain ⟨call', h', hc', hh, step⟩ := stepCall_cases h
  obtain rfl := Option.some.inj (hc.symm.trans hc')
  obtain ⟨hn, -⟩ := List.getElem?_eq_some_iff.mp hc
  rw [own] at hh
  obtain ⟨hi, -⟩ := List.getElem?_eq_some_iff.mp hh
  -- The stage that the step sets tells what is returned.
  have now {s : Stage} (calls : d.calls = c.calls.set n ⟨call.handle, s⟩) :
      s.result? = some result := by
    rw [calls, List.getElem?_set_self hn] at hd
    cases hd
    exact returned
  cases step with
  | entered request' stage entry =>
      rw [stage] at asked
      obtain rfl := Option.some.inj asked
      cases entry with
      | answered memory result' contents eq idle refused =>
          have returns := now (s := .finished c.now result') (by rw [eq]; exact calls_setCall hc _)
          obtain rfl := Option.some.inj returns
          cases request' with
          | start parent =>
              obtain ⟨running, rfl, rfl⟩ := refused parent rfl
              exact .refused parent rfl rfl ((isRunning_of_handle hh).trans running) eq
          | stop =>
              obtain ⟨lock, runtime, rfl⟩ := idle rfl
              have rest := standing.rest_of hh lock runtime hc own (by rw [stage]; rfl)
              exact eq ▸ .stopped rfl rfl ((isRunning_of_handle (c := c) hh).trans rest) rfl
          | _ => cases isTurn
      | pushed _ _ asked | recovering _ asked =>
          subst asked
          cases isTurn
      | launched parent asked lock running eq =>
          subst eq asked own
          obtain rfl := Option.some.inj (now (calls_setCall_of rfl hc (.finished c.now (.ok .done))))
          refine .started parent rfl rfl ((isRunning_of_handle hh).trans running) ?_ _ ?_ rfl
          · show ((c.handles.set call.handle _)[call.handle]?).any Handle.running = true
            rw [List.getElem?_set_self hi]
            rfl
          · rfl
      | taken m r asked lock runtime run eq =>
          subst eq
          cases now (calls_setCall_of rfl hc _)
  | joined m loop r next panicked stage run after eq =>
      subst eq
      have returns := now (calls_setCall hc next)
      rcases after with rfl | ⟨rfl, -⟩ <;> cases returns
  | drained m r stage run eq =>
      subst eq
      cases now (calls_setCall_of rfl hc _)
  | released m claim rest stage eq =>
      subst eq
      cases now (calls_setCall_of rfl hc _)
  | ended m stage eq =>
      subst eq own
      obtain rfl := Option.some.inj (now (s := .finished c.now (.ok .done)) (calls_ended hc _ _))
      rw [stage] at asked
      cases asked
      refine .stopped rfl rfl ?_ (handles_of_goesOn (c.runsGoOn_letGo m) (c.length_letGo m))
      show (((c.letGo m).handles.set call.handle _)[call.handle]?).any Handle.running = false
      rw [handles_letGo, List.getElem?_set_self hi]
      rfl
  | recovered maxAge recovery o memory es stage step eq =>
      rw [stage] at asked
      cases asked
      cases isTurn

/-- An act with which no start or stop of handle `i` returns keeps whether the handle runs, and its
runs. -/
theorem kept_of_no_turn (h : c.perform a = some d) (none : turn? i c d a = none) :
    d.isRunning i = c.isRunning i ∧ (d.share i).runs.length = (c.share i).runs.length := by
  -- A call that returned would be a turn.
  have returned {n : Nat} {call : Call} {request : Request} (act : a = .step (.call n))
      (hc : c.calls[n]? = some call) (asked : call.stage.request? = some request)
      (turn : request.isTurn = true)
      (calls : d.calls = c.calls.set n ⟨call.handle, .finished c.now (.ok .done)⟩) :
      call.handle ≠ i := by
    intro own
    obtain ⟨hn, -⟩ := List.getElem?_eq_some_iff.mp hc
    rw [turn?_of_returned h hc own asked turn (by rw [calls, List.getElem?_set_self hn]) rfl]
      at none
    cases none
  have same (handle : d.handles[i]? = c.handles[i]?) : d.isRunning i = c.isRunning i := by
    rw [isRunning, isRunning, handle]
  have set {j : Nat} {q q' : Handle} (at_j : c.handles[j]? = some q)
      (handles : d.handles = c.handles.set j q') (kept : q'.running = q.running) :
      d.isRunning i = c.isRunning i := by
    rcases Decidable.em (j = i) with rfl | foreign
    · rw [isRunning_of_handle at_j, isRunning_of_handle (handle_set_own at_j handles), kept]
    · exact same (handle_set_other foreign handles)
  have runs (on : c.RunsGoOn d) (length : d.runs.length = c.runs.length) :
      (d.share i).runs.length = (c.share i).runs.length :=
    length_share_same (handles_of_goesOn on length)
  rcases steady_or_turning h with steady | turn
  · refine ⟨?_, runs steady.runs.on steady.runs.length⟩
    cases hh : c.handles[i]? with
    | some q =>
        obtain ⟨q', hq', alike⟩ := steady.handles.on i q hh
        rw [isRunning_of_handle hh, isRunning_of_handle hq', alike.running]
    | none =>
        cases hd : d.handles[i]? with
        | none => exact same (hd.trans hh.symm)
        | some q =>
            rw [isRunning_of_handle hd, (steady.handles.new i q hh hd).running, isRunning, hh]
            rfl
  · have goesOn := turn.goesOn
    cases turn with
    | launched n call q r at_call asked handle lock running fresh runs' handles calls events act =>
        obtain ⟨parent, stage⟩ := asked
        have foreign := returned act at_call
          (show call.stage.request? = some (.start parent) by rw [stage]; rfl) rfl calls
        refine ⟨same (handle_set_other foreign handles), ?_⟩
        have other : r.handle ≠ i := fresh.handle ▸ foreign
        simp [share, runs', other]
    | taken n m call q r at_call asked handle lock runtime run runs' handles calls =>
        exact ⟨set handle handles rfl, runs goesOn (by rw [runs'])⟩
    | went n m call next at_call stops still kept handles =>
        exact ⟨same (by rw [handles]), runs goesOn kept.length⟩
    | ended n m call q at_call stage handle runs' handles calls events act =>
        have foreign := returned act at_call
          (show call.stage.request? = some .stop by rw [stage]; rfl) rfl calls
        exact ⟨same (handle_set_other foreign handles),
          runs goesOn (by rw [runs', length_letGo])⟩
    | forsaken n m call act at_call stops runs' handles =>
        refine ⟨?_, runs goesOn (by rw [runs', length_letGo])⟩
        rw [isRunning, isRunning, handles, List.getElem?_modify]
        cases c.handles[i]? with
        | none => rfl
        | some q =>
            show Handle.running _ = _
            split <;> rfl
    | disposed j m q r handle unused runtime run runs' handles =>
        exact ⟨set handle handles rfl, runs goesOn (by rw [runs', length_letGo])⟩

end Cluster

end ReliableQueue.Queue
