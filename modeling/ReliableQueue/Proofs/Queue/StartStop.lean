import ReliableQueue.Proofs.Queue.Turning

/-!
How the course of a handle turns: a start sets a run going, a stop takes it and ends it, and a
handle that comes to its end leaves its run behind.
-/

namespace ReliableQueue.Queue

variable {name : String} {i : Nat} {a : Act} {c d : Cluster}

namespace Cluster

/-! ### Where a handle stands -/

theorem not_gone_of_call {n : Nat} {call : Call} (hc : c.calls[n]? = some call)
    (own : call.handle = i) (live : call.stage.isLive = true) (h : Handle) : ¬Gone i c h := by
  intro gone
  rw [gone.done n call hc own] at live
  cases live

theorem not_gone_of_there {h : Handle} (handle : c.handles[i]? = some h)
    (there : h.disposed = false) (k : Handle) : ¬Gone i c k := by
  intro gone
  obtain rfl := Option.some.inj (handle.symm.trans gone.handle)
  rw [gone.disposed] at there
  cases there

/-- A handle that is neither locked nor running is at rest. -/
theorem Course.rest {h : Handle} (course : Course i c) (here : ∀ k, ¬Gone i c k)
    (handle : c.handles[i]? = some h) (lock : h.lock = none)
    (idle : h.running = false ∨ h.runtime = none) : Resting i c := by
  cases course with
  | resting rest => exact rest
  | going k m r going =>
      obtain rfl := Option.some.inj (handle.symm.trans going.handle)
      rcases idle with idle | idle
      · rw [going.running] at idle
        cases idle
      · rw [going.runtime] at idle
        cases idle
  | stopping k m r stop s under =>
      obtain rfl := Option.some.inj (handle.symm.trans under.handle)
      rw [under.lock] at lock
      cases lock
  | gone k gone => exact (here k gone).elim

theorem Course.run {h : Handle} {n : Nat} (course : Course i c) (here : ∀ k, ¬Gone i c k)
    (handle : c.handles[i]? = some h) (runtime : h.runtime = some n) :
    ∃ r, Going i c h n r := by
  cases course with
  | resting rest =>
      rw [(rest.handle h handle).runtime] at runtime
      cases runtime
  | going k m r going =>
      obtain rfl := Option.some.inj (handle.symm.trans going.handle)
      rw [going.runtime] at runtime
      cases runtime
      exact ⟨r, going⟩
  | stopping k m r stop s under =>
      obtain rfl := Option.some.inj (handle.symm.trans under.handle)
      rw [under.runtime] at runtime
      cases runtime
  | gone k gone => exact (here k gone).elim

theorem Course.stop {n m : Nat} {call : Call} (course : Course i c)
    (hc : c.calls[n]? = some call) (stops : call.stage.stopping? = some m) :
    call.handle = i ∧ ∃ h r, Ending i c h m r n call.stage := by
  have bound (free : call.stage.stopping? = none) : False := by
    rw [free] at stops
    cases stops
  cases course with
  | resting rest => exact (bound (rest.free n call hc)).elim
  | going h k r going => exact (bound (going.free n call hc)).elim
  | gone h gone => exact (bound (gone.free n call hc)).elim
  | stopping h k r stop s under =>
      rcases Decidable.em (n = stop) with rfl | apart
      · obtain rfl := Option.some.inj (hc.symm.trans under.call)
        obtain rfl := Option.some.inj (stops.symm.trans under.stage.stopping?)
        exact ⟨rfl, h, r, under⟩
      · exact (bound (under.free n call apart hc)).elim

/-! ### Starting and stopping -/

theorem free_set {n m : Nat} {call new : Call} (free : new.stage.stopping? = none)
    (hm : (c.calls.set n new)[m]? = some call)
    (others : m ≠ n → c.calls[m]? = some call → call.stage.stopping? = none) :
    call.stage.stopping? = none := by
  rcases getElem?_set_cases hm with ⟨-, rfl⟩ | ⟨apart, hm⟩
  · exact free
  · exact others apart hm

/-- A start that is not refused sets a run going. -/
theorem going_launch {n : Nat} {call : Call} {s : Stage} {h : Handle} {r : Run}
    (rest : Resting i c) (handle : c.handles[i]? = some h) (kept : r.kept = true)
    (free : s.stopping? = none) (runs : d.runs = c.runs ++ [r])
    (handles : d.handles = c.handles.set i
      { h with running := true, runtime := some c.runs.length })
    (calls : d.calls = c.calls.set n ⟨call.handle, s⟩)
    (events : ∃ es, Lossless es ∧ d.events = es ++ c.events) :
    Going i d { h with running := true, runtime := some c.runs.length } c.runs.length r := by
  obtain ⟨hi, -⟩ := List.getElem?_eq_some_iff.mp handle
  exact {
    kept
    handle := by rw [handles, List.getElem?_set_self hi]
    lock := (rest.handle h handle).lock
    running := rfl
    runtime := rfl
    run := by
      rw [runs]
      exact List.getElem?_concat_length
    spent := fun m q hm hq => by
      rw [runs] at hq
      rcases getElem?_concat_cases hq with ⟨last, -⟩ | hq
      · exact (hm last).elim
      · exact rest.spent m q hq
    free := fun m call' hm => by
      rw [calls] at hm
      exact free_set free hm fun _ => rest.free m call'
    intact := by
      obtain ⟨es, none, events⟩ := events
      exact rest.intact.grows events none }

/-- A stop takes the run that is going. -/
theorem ending_take {n m : Nat} {call : Call} {h : Handle} {r : Run} (going : Going i c h m r)
    (hc : c.calls[n]? = some call) (runs : d.runs = c.runs)
    (handles : d.handles = c.handles.set i { h with runtime := none, lock := some n })
    (calls : d.calls = c.calls.set n ⟨i, .joining m 0⟩) (events : d.events = c.events) :
    Ending i d { h with runtime := none, lock := some n } m r n (.joining m 0) := by
  obtain ⟨hi, -⟩ := List.getElem?_eq_some_iff.mp going.handle
  obtain ⟨hn, -⟩ := List.getElem?_eq_some_iff.mp hc
  exact {
    handle := by rw [handles, List.getElem?_set_self hi]
    lock := rfl
    runtime := rfl
    run := runs ▸ going.run
    kept := going.kept
    spent := runs ▸ going.spent
    call := by rw [calls, List.getElem?_set_self hn]
    stage := ⟨rfl, fun _ none => absurd none (Nat.not_lt_zero _)⟩
    free := fun k call' hk hm => by
      rw [calls, List.getElem?_set_ne (Ne.symm hk)] at hm
      exact going.free k call' hm
    intact := going.intact.same events }

/-- A stop under way goes on. -/
theorem ending_next {h : Handle} {n stop : Nat} {r : Run} {s s' : Stage}
    (under : Ending i c h n r stop s) (runs : c.RunsKept d) (handles : d.handles = c.handles)
    (calls : d.calls = c.calls.set stop ⟨i, s'⟩)
    (ends : ∀ q q', c.runs[n]? = some q → d.runs[n]? = some q' → s.Ends n q → s'.Ends n q')
    (events : ∃ es, Lossless es ∧ d.events = es ++ c.events) :
    ∃ r', Ending i d h n r' stop s' := by
  obtain ⟨hs, -⟩ := List.getElem?_eq_some_iff.mp under.call
  obtain ⟨r', latest, -, kept⟩ := runs.latest under.toLatest
  exact ⟨r', {
    latest with
    handle := handles ▸ under.handle
    lock := under.lock
    runtime := under.runtime
    kept := kept under.kept
    call := by rw [calls, List.getElem?_set_self hs]
    stage := ends r r' under.run latest.run under.stage
    free := fun m call hm hc => by
      rw [calls, List.getElem?_set_ne (Ne.symm hm)] at hc
      exact under.free m call hm hc
    intact := by
      obtain ⟨es, none, events⟩ := events
      exact under.intact.grows events none }⟩

/-- A stop that has released everything leaves the handle at rest. -/
theorem resting_end {h : Handle} {n stop : Nat} {r : Run} {s : Stage}
    (under : Ending i c h n r stop (.releasing n [])) (free : s.stopping? = none)
    (runs : d.runs = (c.letGo n).runs)
    (handles : d.handles = c.handles.set i { h with running := false, lock := none })
    (calls : d.calls = c.calls.set stop ⟨i, s⟩)
    (events : ∃ es, Lossless es ∧ d.events = es ++ (c.letGo n).events) : Resting i d := by
  have spent (m : Nat) (q : Run) (hq : c.runs[m]? = some q) : q.Spent := by
    rcases Decidable.em (m = n) with rfl | apart
    · obtain rfl := Option.some.inj (under.run.symm.trans hq)
      exact under.stage.2
    · exact under.spent m q apart hq
  obtain ⟨hi, -⟩ := List.getElem?_eq_some_iff.mp under.handle
  exact {
    handle := fun h' hh => by
      rw [handles, List.getElem?_set_self hi] at hh
      cases hh
      exact ⟨rfl, under.runtime, rfl⟩
    spent := fun m q hq => by
      rw [runs] at hq
      obtain ⟨q', hq', on⟩ := (c.runsGoOn_letGo n).back (c.length_letGo n) hq
      exact on.spent (spent m q' hq')
    free := fun m call hm => by
      rw [calls] at hm
      exact free_set free hm fun apart => under.free m call apart
    intact := by
      obtain ⟨es, none, events⟩ := events
      rw [events_letGo_of_spent under.run (spent n r under.run)] at events
      exact under.intact.grows events none }

/-- A handle that comes to its end leaves a run that is going behind. -/
theorem gone_disposal {h : Handle} {n : Nat} {r : Run} (going : Going i c h n r)
    (unused : c.Unused i h)
    (handles : d.handles = c.handles.set i { h with disposed := true, runtime := none })
    (calls : d.calls = c.calls) : Gone i d { h with disposed := true, runtime := none } := by
  obtain ⟨hi, -⟩ := List.getElem?_eq_some_iff.mp going.handle
  exact {
    handle := by rw [handles, List.getElem?_set_self hi]
    given := unused.given
    disposed := rfl
    done := fun m call hc own => unused.done (calls ▸ hc) own
    free := fun m call hc => going.free m call (calls ▸ hc) }

/-! ### Acts -/

theorem apart_set {h : Handle} (apart : Apart i c) (handles : d.handles = c.handles.set i h) :
    Apart i d := by
  intro j h' hj hh
  rw [handles, List.getElem?_set_ne (Ne.symm hj)] at hh
  exact apart j h' hj hh

theorem course_turning (ok : SoleClaimer name i c a) (sole : Sole i c) (turn : Turning a c d) :
    Course i d ∧ Apart i d := by
  obtain ⟨course, apart, asks⟩ := sole
  -- Nothing was started on another handle, so it has no run that could be taken or left.
  have own {j m : Nat} {h : Handle} (handle : c.handles[j]? = some h)
      (runtime : h.runtime = some m) : j = i := Decidable.byContradiction fun other => by
    rw [apart j h other handle] at runtime
    cases runtime
  cases turn with
  | launched n call h r at_call asked handle lock running fresh runs handles calls events =>
      obtain ⟨parent, stage⟩ := asked
      have own : call.handle = i :=
        asks call (List.mem_of_getElem? at_call) _ (by rw [stage]; rfl) parent rfl
      rw [own] at handle handles
      have rest := course.rest (not_gone_of_call at_call own (by rw [stage]; rfl)) handle lock
        (.inl running)
      exact ⟨.going _ _ r (going_launch rest handle fresh.kept (by rfl) runs handles calls events),
        apart_set apart handles⟩
  | taken n m call h r at_call asked handle lock runtime run runs handles calls events =>
      have own := own handle runtime
      rw [own] at handle handles calls
      obtain ⟨r', going⟩ := course.run (not_gone_of_call at_call own (by rw [asked]; rfl)) handle
        runtime
      exact ⟨.stopping _ m r' n _ (ending_take going at_call runs handles calls events),
        apart_set apart handles⟩
  | went n m call next at_call stops still runs handles calls ends left events =>
      obtain ⟨own, h, r, under⟩ := course.stop at_call stops
      rw [own] at calls
      obtain ⟨r', under⟩ := ending_next under runs handles calls ends events
      exact ⟨.stopping h m r' n next under, fun j h' hj hh => apart j h' hj (handles ▸ hh)⟩
  | ended n m call h at_call stage handle runs handles calls events =>
      obtain ⟨own, h', r, under⟩ := course.stop (m := m) at_call (by rw [stage]; rfl)
      rw [stage] at under
      rw [own] at handle handles calls
      obtain rfl := Option.some.inj (handle.symm.trans under.handle)
      exact ⟨.resting (resting_end under (by rfl) runs handles calls events),
        apart_set apart handles⟩
  | forsaken n m call act at_call stops =>
      subst act
      rw [ok call at_call] at stops
      cases stops
  | disposed j m h r handle unused runtime run runs handles calls events =>
      obtain rfl := own handle runtime
      obtain ⟨r', going⟩ := course.run (not_gone_of_there handle unused.there) handle runtime
      exact ⟨.gone _ (gone_disposal going unused handles calls), apart_set apart handles⟩

theorem Sole.perform (ok : SoleClaimer name i c a) (sole : Sole i c)
    (h : c.perform a = some d) : Sole i d := by
  have turned : Course i d ∧ Apart i d := by
    rcases steady_or_turning h with steady | turn
    · exact ⟨course_steady steady sole.course, steady.handles.apart sole.apart⟩
    · exact course_turning ok sole turn
  refine ⟨turned.1, turned.2, sole.asks.perform h ?_⟩
  rintro j request rfl parent rfl
  exact ok

end Cluster

end ReliableQueue.Queue
