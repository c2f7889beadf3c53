import ReliableQueue.Proofs.Queue.Drain

/-!
Where each handle of a cluster stands, whatever the others do. Its runs follow one another: all of
them are over, or one is going, or one is being ended by a stop, or one was left behind for good.
Most acts leave a handle aside; only a turn on the handle itself changes where it stands.
-/

namespace ReliableQueue.Queue

variable {forsaken : Prop} {i : Nat} {a : Act} {b c d : Cluster}

namespace Cluster

/-! ### Handles -/

/-- All runs of handle `i` but run `n`, which is `r`, are over. -/
structure LatestOf (i : Nat) (c : Cluster) (n : Nat) (r : Run) : Prop where
  run : c.runs[n]? = some r
  own : r.handle = i
  spent : ∀ (m : Nat) (q : Run), m ≠ n → c.runs[m]? = some q → q.handle = i → q.Spent

/-- No call on handle `i` is a stop under way, but for call number `stop`. -/
def FreeBut (i : Nat) (c : Cluster) (stop : Option Nat) : Prop :=
  ∀ (n : Nat) (call : Call), some n ≠ stop → c.calls[n]? = some call → call.handle = i →
    call.stage.stopping? = none

/-- All calls on handle `i` are over. -/
def Deaf (i : Nat) (c : Cluster) : Prop :=
  ∀ (n : Nat) (call : Call), c.calls[n]? = some call → call.handle = i →
    call.stage.isLive = false

/-- No run of handle `i` is going. -/
structure Quiescent (i : Nat) (c : Cluster) : Prop where
  handle : ∀ h : Handle, c.handles[i]? = some h → h.AtRest
  spent : ∀ (n : Nat) (r : Run), c.runs[n]? = some r → r.handle = i → r.Spent
  free : FreeBut i c none

/-- Run `n`, which is `r`, is going for handle `i`, which is `h`. -/
structure Active (i : Nat) (c : Cluster) (h : Handle) (n : Nat) (r : Run) : Prop
    extends LatestOf i c n r where
  handle : c.handles[i]? = some h
  lock : h.lock = none
  running : h.running = true
  runtime : h.runtime = some n
  free : FreeBut i c none

/-- Call number `stop` on handle `i`, which is at stage `s`, ends run `n`. -/
structure Stopping (i : Nat) (c : Cluster) (h : Handle) (n : Nat) (r : Run) (stop : Nat)
    (s : Stage) : Prop extends LatestOf i c n r where
  handle : c.handles[i]? = some h
  lock : h.lock = some stop
  running : h.running = true
  runtime : h.runtime = none
  call : c.calls[stop]? = some ⟨i, s⟩
  stops : s.stopping? = some n
  free : FreeBut i c (some stop)

/-- Nothing can end run `n` of handle `i` any more, or start another one: the stop that was to end
it was given up, or the handle has come to its end. -/
structure Deserted (forsaken : Prop) (i : Nat) (c : Cluster) (h : Handle) (n : Nat) (r : Run) :
    Prop extends LatestOf i c n r where
  handle : c.handles[i]? = some h
  lock : h.lock = none
  running : h.running = true
  runtime : h.runtime = none
  free : FreeBut i c none
  cause : forsaken ∨ h.owned = false ∧ Deaf i c

/-- Where handle `i` stands; `forsaken` says whether a stop of it may have been given up. -/
inductive Standing (forsaken : Prop) (i : Nat) (c : Cluster) : Prop where
  | quiescent (rest : Quiescent i c)
  | active (h : Handle) (n : Nat) (r : Run) (going : Active i c h n r)
  | stopping (h : Handle) (n : Nat) (r : Run) (stop : Nat) (s : Stage)
      (under : Stopping i c h n r stop s)
  | deserted (h : Handle) (n : Nat) (r : Run) (left : Deserted forsaken i c h n r)

/-- At most one run of a handle is not over. -/
theorem Standing.one (standing : Standing forsaken i c) :
    ∃ n, ∀ (m : Nat) (q : Run), m ≠ n → c.runs[m]? = some q → q.handle = i → q.Spent := by
  cases standing with
  | quiescent rest => exact ⟨0, fun m q _ => rest.spent m q⟩
  | active h n r going => exact ⟨n, going.spent⟩
  | stopping h n r stop s under => exact ⟨n, under.spent⟩
  | deserted h n r left => exact ⟨n, left.spent⟩

/-! ### Acts that leave a handle aside -/

/-- The calls on handle `i` stop what they did, and new ones are made by its owner. -/
structure CallsAside (i : Nat) (c d : Cluster) : Prop where
  on : ∀ (n : Nat) (call : Call), c.calls[n]? = some call → call.handle = i →
    ∃ s : Stage, d.calls[n]? = some ⟨i, s⟩ ∧ s.stopping? = call.stage.stopping?
  back : ∀ (n : Nat) (call : Call), d.calls[n]? = some call → call.handle = i →
    (call.stage.stopping? = none ∧ c.isOwned i = true) ∨
      ∃ old, c.calls[n]? = some old ∧ old.handle = i ∧
        call.stage.stopping? = old.stage.stopping? ∧
        (old.stage.isLive = false → call.stage.isLive = false)

/-- Nothing is started, taken or ended on handle `i`. -/
structure Aside (i : Nat) (c d : Cluster) : Prop where
  on : c.RunsGoOn d
  back : ∀ (n : Nat) (r : Run), d.runs[n]? = some r → r.handle = i →
    ∃ q, c.runs[n]? = some q ∧ q.Continues r
  handle : ∀ h : Handle, c.handles[i]? = some h → ∃ h', d.handles[i]? = some h' ∧ h.Alike h'
  built : ∀ h : Handle, c.handles[i]? = none → d.handles[i]? = some h → h.AtRest
  calls : CallsAside i c d

namespace Aside

theorem spent (aside : Aside i c d) {n : Nat} {r : Run} (hr : d.runs[n]? = some r)
    (own : r.handle = i) (spent : ∀ q, c.runs[n]? = some q → q.handle = i → q.Spent) :
    r.Spent := by
  obtain ⟨q, hq, on⟩ := aside.back n r hr own
  exact on.spent (spent q hq (on.handle.symm.trans own))

theorem latest (aside : Aside i c d) {n : Nat} {r : Run} (latest : LatestOf i c n r) :
    ∃ r', LatestOf i d n r' := by
  obtain ⟨r', hr', on⟩ := aside.on n r latest.run
  exact ⟨r', hr', on.handle.trans latest.own, fun m q hm hq own =>
    aside.spent hq own (latest.spent m · hm)⟩

theorem free (aside : Aside i c d) {stop : Option Nat} (free : FreeBut i c stop) :
    FreeBut i d stop := by
  intro n call hn hc own
  rcases aside.calls.back n call hc own with ⟨none, -⟩ | ⟨old, ho, own', same, -⟩
  · exact none
  · exact same.trans (free n old hn ho own')

theorem deaf (aside : Aside i c d) {h : Handle} (handle : c.handles[i]? = some h)
    (given : h.owned = false) (deaf : Deaf i c) : Deaf i d := by
  intro n call hc own
  rcases aside.calls.back n call hc own with ⟨-, owned⟩ | ⟨old, ho, own', -, still⟩
  · rw [isOwned, handle, Option.any_some, given] at owned
    cases owned
  · exact still (deaf n old ho own')

theorem standing (aside : Aside i c d) (standing : Standing forsaken i c) :
    Standing forsaken i d := by
  cases standing with
  | quiescent rest =>
      refine .quiescent ⟨fun h' hh' => ?_, fun n r hr own => aside.spent hr own (rest.spent n),
        aside.free rest.free⟩
      cases before : c.handles[i]? with
      | none => exact aside.built h' before hh'
      | some h =>
          obtain ⟨h'', hh'', alike⟩ := aside.handle h before
          obtain rfl := Option.some.inj (hh'.symm.trans hh'')
          exact alike.atRest (rest.handle h before)
  | active h n r going =>
      obtain ⟨h', handle, alike⟩ := aside.handle h going.handle
      obtain ⟨r', latest⟩ := aside.latest going.toLatestOf
      exact .active h' n r' {
        latest with
        handle
        lock := alike.lock.trans going.lock
        running := alike.running.trans going.running
        runtime := alike.runtime.trans going.runtime
        free := aside.free going.free }
  | stopping h n r stop s under =>
      obtain ⟨h', handle, alike⟩ := aside.handle h under.handle
      obtain ⟨r', latest⟩ := aside.latest under.toLatestOf
      obtain ⟨s', call, same⟩ := aside.calls.on stop _ under.call rfl
      exact .stopping h' n r' stop s' {
        latest with
        handle, call
        lock := alike.lock.trans under.lock
        running := alike.running.trans under.running
        runtime := alike.runtime.trans under.runtime
        stops := same.trans under.stops
        free := aside.free under.free }
  | deserted h n r left =>
      obtain ⟨h', handle, alike⟩ := aside.handle h left.handle
      obtain ⟨r', latest⟩ := aside.latest left.toLatestOf
      exact .deserted h' n r' {
        latest with
        handle
        lock := alike.lock.trans left.lock
        running := alike.running.trans left.running
        runtime := alike.runtime.trans left.runtime
        free := aside.free left.free
        cause := left.cause.imp_right fun ⟨given, deaf⟩ =>
          ⟨alike.owned given, aside.deaf left.handle given deaf⟩ }

end Aside

theorem aside_of_steady (steady : Steady c d) (i : Nat) : Aside i c d where
  on := steady.runs.on
  back n r hr _ := steady.runs.on.back steady.runs.length hr
  handle h hh := steady.handles.on i h hh
  built h none hh := steady.handles.new i h none hh
  calls := {
    on := fun n call hc own => by
      rcases steady.calls.on n call hc with same | ⟨free, -, s, next, new⟩
      · exact ⟨call.stage, by rw [same, ← own], rfl⟩
      · exact ⟨s, own ▸ next, new.trans free.symm⟩
    back := fun n call hc own => by
      cases before : c.calls[n]? with
      | none =>
          obtain ⟨free, owned⟩ := steady.calls.new n call before hc
          exact .inl ⟨free, own ▸ owned⟩
      | some old =>
          refine .inr ⟨old, rfl, ?_⟩
          rcases steady.calls.on n old before with same | ⟨free, live, s, next, new⟩
          · obtain rfl := Option.some.inj (same.symm.trans hc)
            exact ⟨own, rfl, id⟩
          · obtain rfl := Option.some.inj (hc.symm.trans next)
            refine ⟨own, new.trans free.symm, fun dead => ?_⟩
            rw [live] at dead
            cases dead }

theorem callsAside_same (calls : d.calls = c.calls) : CallsAside i c d where
  on n call hc own := ⟨call.stage, by rw [calls, hc, ← own], rfl⟩
  back n call hc own := .inr ⟨call, by rw [← calls, hc], own, rfl, id⟩

/-- A call on another handle goes on, or a stop of handle `i` does. -/
theorem callsAside_set {n : Nat} {call : Call} {s : Stage} (hc : c.calls[n]? = some call)
    (calls : d.calls = c.calls.set n ⟨call.handle, s⟩)
    (same : call.handle = i → s.stopping? = call.stage.stopping? ∧ call.stage.isLive = true) :
    CallsAside i c d where
  on m old hm own := by
    rw [calls]
    rcases Decidable.em (n = m) with rfl | apart
    · obtain rfl := Option.some.inj (hc.symm.trans hm)
      obtain ⟨hn, -⟩ := List.getElem?_eq_some_iff.mp hc
      exact ⟨s, by rw [List.getElem?_set_self hn, own], (same own).1⟩
    · exact ⟨old.stage, by rw [List.getElem?_set_ne apart, hm, ← own], rfl⟩
  back m new hm own := by
    rw [calls] at hm
    rcases getElem?_set_cases hm with ⟨rfl, rfl⟩ | ⟨-, hm⟩
    · obtain ⟨stops, live⟩ := same own
      refine .inr ⟨call, hc, own, stops, fun dead => ?_⟩
      rw [live] at dead
      cases dead
    · exact .inr ⟨new, hm, own, rfl, id⟩

/-- A turn that leaves handle `i` as it is. -/
theorem aside_of_turn (turn : Turning a c d) (handle : d.handles[i]? = c.handles[i]?)
    (new : ∀ r, d.runs = c.runs ++ [r] → r.handle ≠ i) (calls : CallsAside i c d) :
    Aside i c d where
  on := turn.goesOn
  back _ r hr own := (turn.run hr).resolve_right fun ⟨runs, _⟩ => new r runs own
  handle h hh := ⟨h, handle.trans hh, .refl h⟩
  built h none hh := by
    rw [handle, none] at hh
    cases hh
  calls

theorem handle_set_other {j : Nat} {h : Handle} (other : j ≠ i)
    (handles : d.handles = c.handles.set j h) : d.handles[i]? = c.handles[i]? := by
  rw [handles, List.getElem?_set_ne other]

theorem handle_set_own {h h' : Handle} (handle : c.handles[i]? = some h)
    (handles : d.handles = c.handles.set i h') : d.handles[i]? = some h' := by
  obtain ⟨hi, -⟩ := List.getElem?_eq_some_iff.mp handle
  rw [handles, List.getElem?_set_self hi]

/-! ### Turns of a handle -/

section

variable {n : Nat} {call : Call} {h : Handle}

theorem Standing.quiescent_of (standing : Standing forsaken i c)
    (handle : c.handles[i]? = some h) (running : h.running = false) : Quiescent i c := by
  have absurd {k : Handle} (hk : c.handles[i]? = some k) (going : k.running = true) : False := by
    obtain rfl := Option.some.inj (handle.symm.trans hk)
    rw [running] at going
    cases going
  cases standing with
  | quiescent rest => exact rest
  | active k m r going => exact (absurd going.handle going.running).elim
  | stopping k m r stop s under => exact (absurd under.handle under.running).elim
  | deserted k m r left => exact (absurd left.handle left.running).elim

theorem Standing.active_of {m : Nat} (standing : Standing forsaken i c)
    (handle : c.handles[i]? = some h) (runtime : h.runtime = some m) :
    ∃ r, Active i c h m r := by
  have absurd {k : Handle} (hk : c.handles[i]? = some k) (idle : k.runtime = none) : False := by
    obtain rfl := Option.some.inj (handle.symm.trans hk)
    rw [runtime] at idle
    cases idle
  cases standing with
  | quiescent rest => exact (absurd handle (rest.handle h handle).runtime).elim
  | stopping k m r stop s under => exact (absurd under.handle under.runtime).elim
  | deserted k m r left => exact (absurd left.handle left.runtime).elim
  | active k m r going =>
      obtain rfl := Option.some.inj (handle.symm.trans going.handle)
      obtain rfl := Option.some.inj (runtime.symm.trans going.runtime)
      exact ⟨r, going⟩

theorem Standing.stopping_of {m : Nat} (standing : Standing forsaken i c)
    (hc : c.calls[n]? = some call) (own : call.handle = i)
    (stops : call.stage.stopping? = some m) : ∃ h r, Stopping i c h m r n call.stage := by
  have bound (free : call.stage.stopping? = none) : False := by
    rw [free] at stops
    cases stops
  cases standing with
  | quiescent rest => exact (bound (rest.free n call nofun hc own)).elim
  | active h m r going => exact (bound (going.free n call nofun hc own)).elim
  | deserted h m r left => exact (bound (left.free n call nofun hc own)).elim
  | stopping h k r stop s under =>
      rcases Decidable.em (n = stop) with rfl | apart
      · obtain rfl := Option.some.inj (hc.symm.trans under.call)
        obtain rfl := Option.some.inj (stops.symm.trans under.stops)
        exact ⟨h, r, under⟩
      · exact (bound (under.free n call (by simpa using apart) hc own)).elim

theorem FreeBut.but (free : FreeBut i c none) (n : Nat) : FreeBut i c (some n) :=
  fun m call _ => free m call nofun

/-- The call that was set is the only one that may have been a stop under way. -/
theorem FreeBut.set {s : Stage} (free : FreeBut i c (some n))
    (calls : d.calls = c.calls.set n ⟨i, s⟩) (idle : s.stopping? = none) : FreeBut i d none := by
  intro m call' _ hm own
  rw [calls] at hm
  rcases getElem?_set_cases hm with ⟨-, rfl⟩ | ⟨apart, hm⟩
  · exact idle
  · exact free m call' (by simpa using apart) hm own

theorem LatestOf.goesOn {n : Nat} {r : Run} (latest : LatestOf i c n r) (on : c.RunsGoOn d)
    (length : d.runs.length = c.runs.length) : ∃ r', LatestOf i d n r' := by
  obtain ⟨r', hr', on'⟩ := on n r latest.run
  refine ⟨r', hr', on'.handle.trans latest.own, fun m q hm hq own => ?_⟩
  obtain ⟨q', hq', on''⟩ := on.back length hq
  exact on''.spent (latest.spent m q' hm hq' (on''.handle.symm.trans own))

theorem Quiescent.launch {r : Run} (rest : Quiescent i c) (handle : c.handles[i]? = some h)
    (own : r.handle = i) (runs : d.runs = c.runs ++ [r])
    (handles : d.handles = c.handles.set i
      { h with running := true, runtime := some c.runs.length }) {s : Stage}
    (calls : d.calls = c.calls.set n ⟨i, s⟩) (idle : s.stopping? = none) :
    Active i d { h with running := true, runtime := some c.runs.length } c.runs.length r where
  run := by
    rw [runs]
    exact List.getElem?_concat_length
  own := own
  spent m q hm hq own := by
    rw [runs] at hq
    rcases getElem?_concat_cases hq with ⟨last, -⟩ | hq
    · exact (hm last).elim
    · exact rest.spent m q hq own
  handle := handle_set_own handle handles
  lock := (rest.handle h handle).lock
  running := rfl
  runtime := rfl
  free := (rest.free.but n).set calls idle

theorem Active.take {m : Nat} {r : Run} (going : Active i c h m r)
    (hc : c.calls[n]? = some call) (runs : d.runs = c.runs)
    (handles : d.handles = c.handles.set i { h with runtime := none, lock := some n })
    (calls : d.calls = c.calls.set n ⟨i, .joining m 0⟩) :
    Stopping i d { h with runtime := none, lock := some n } m r n (.joining m 0) where
  run := runs ▸ going.run
  own := going.own
  spent := runs ▸ going.spent
  handle := handle_set_own going.handle handles
  lock := rfl
  running := going.running
  runtime := rfl
  call := by
    obtain ⟨hn, -⟩ := List.getElem?_eq_some_iff.mp hc
    rw [calls, List.getElem?_set_self hn]
  stops := rfl
  free k call' hk hm own := by
    rw [calls, List.getElem?_set_ne (by simpa [eq_comm] using hk)] at hm
    exact going.free k call' nofun hm own

/-- A stop that has released everything has ended the run. -/
theorem Stopping.ended {m : Nat} {r : Run} {s s' : Stage} (under : Stopping i c h m r n s)
    (spent : r.Spent) (runs : d.runs = (c.letGo m).runs)
    (handles : d.handles = c.handles.set i { h with running := false, lock := none })
    (calls : d.calls = c.calls.set n ⟨i, s'⟩) (idle : s'.stopping? = none) : Quiescent i d where
  handle h' hh' := by
    rw [handle_set_own under.handle handles] at hh'
    cases hh'
    exact ⟨rfl, under.runtime, rfl⟩
  spent k q hq own := by
    rw [runs] at hq
    obtain ⟨q', hq', on⟩ := (c.runsGoOn_letGo m).back (c.length_letGo m) hq
    refine on.spent ?_
    rcases Decidable.em (k = m) with rfl | apart
    · obtain rfl := Option.some.inj (under.run.symm.trans hq')
      exact spent
    · exact under.spent k q' apart hq' (on.handle.symm.trans own)
  free := under.free.set calls idle

end

/-- On a handle that was given up and is not used any more no call is made. -/
theorem Deaf.perform {h : Handle} (deaf : Deaf i c) (handle : c.handles[i]? = some h)
    (given : h.owned = false) (hp : c.perform a = some d) : Deaf i d := by
  rcases steady_or_turning hp with steady | turn
  · exact (aside_of_steady steady i).deaf handle given deaf
  · have set {n : Nat} {call : Call} {s : Stage} (hc : c.calls[n]? = some call)
        (live : call.stage.isLive = true) (calls : d.calls = c.calls.set n ⟨call.handle, s⟩) :
        Deaf i d := by
      intro m call' hm own
      rw [calls] at hm
      rcases getElem?_set_cases hm with ⟨-, rfl⟩ | ⟨-, hm⟩
      · rw [deaf n call hc own] at live
        cases live
      · exact deaf m call' hm own
    cases turn with
    | launched n call h r at_call asked handle lock running fresh runs handles calls =>
        obtain ⟨parent, stage⟩ := asked
        exact set at_call (by rw [stage]; rfl) calls
    | taken n m call h r at_call asked handle lock runtime run runs handles calls =>
        exact set at_call (by rw [asked]; rfl) calls
    | went n m call next at_call stops still runs handles calls =>
        exact set at_call (isLive_of_stopping? stops) calls
    | ended n m call h at_call stage handle runs handles calls =>
        exact set at_call (by rw [stage]; rfl) calls
    | forsaken n m call act at_call stops runs handles calls =>
        exact set at_call (isLive_of_stopping? stops) calls
    | disposed _ _ _ _ _ _ _ _ _ _ calls => exact fun n call hc => deaf n call (calls ▸ hc)

theorem Standing.turn (standing : Standing forsaken i c) (awaited : c.Awaited)
    (turn : Turning a c d)
    (kept : ∀ n call, a = .abandon n → c.calls[n]? = some call → call.handle = i →
      call.stage.stopping? ≠ none → forsaken) : Standing forsaken i d := by
  have goesOn := turn.goesOn
  have same (length : d.runs.length = c.runs.length) (r : Run) (runs : d.runs = c.runs ++ [r]) :
      r.handle ≠ i := by
    rw [runs, List.length_append, List.length_singleton] at length
    omega
  have aside (handle : d.handles[i]? = c.handles[i]?)
      (new : ∀ r, d.runs = c.runs ++ [r] → r.handle ≠ i) (calls : CallsAside i c d) :
      Standing forsaken i d := (aside_of_turn turn handle new calls).standing standing
  -- A turn on another handle leaves this one aside.
  have other {n : Nat} {call : Call} {s : Stage} (at_call : c.calls[n]? = some call)
      (foreign : call.handle ≠ i) (handle : d.handles[i]? = c.handles[i]?)
      (new : ∀ r, d.runs = c.runs ++ [r] → r.handle ≠ i)
      (calls : d.calls = c.calls.set n ⟨call.handle, s⟩) : Standing forsaken i d :=
    aside handle new (callsAside_set at_call calls fun own => (foreign own).elim)
  cases turn with
  | launched n call h r at_call asked handle lock running fresh runs handles calls events =>
      rcases Decidable.em (call.handle = i) with own | foreign
      · rw [own] at handle handles calls
        exact .active _ _ r ((standing.quiescent_of handle running).launch handle
          (fresh.handle.trans own) runs handles calls rfl)
      · refine other at_call foreign (handle_set_other foreign handles) (fun r' runs' => ?_) calls
        obtain rfl : r = r' := by simpa using runs.symm.trans runs'
        exact fresh.handle ▸ foreign
  | taken n m call h r at_call asked handle lock runtime run runs handles calls events =>
      rcases Decidable.em (call.handle = i) with own | foreign
      · rw [own] at handle handles calls
        obtain ⟨r', going⟩ := standing.active_of handle runtime
        exact .stopping _ m r' n _ (going.take at_call runs handles calls)
      · exact other at_call foreign (handle_set_other foreign handles) (same (by rw [runs])) calls
  | went n m call next at_call stops still runs handles calls ends left events =>
      refine aside (by rw [handles]) (same runs.length) (callsAside_set at_call calls
        fun _ => ⟨still.trans stops.symm, isLive_of_stopping? stops⟩)
  | ended n m call h at_call stage handle runs handles calls events =>
      have stops : call.stage.stopping? = some m := by rw [stage]; rfl
      rcases Decidable.em (call.handle = i) with own | foreign
      · rw [own] at handle handles calls
        obtain ⟨h', r, under⟩ := standing.stopping_of at_call own stops
        obtain rfl := Option.some.inj (handle.symm.trans under.handle)
        obtain ⟨r', run, ends⟩ := awaited n m call at_call stops
        obtain rfl := Option.some.inj (run.symm.trans under.run)
        rw [stage] at ends
        exact .quiescent (under.ended ends.2 runs handles calls rfl)
      · exact other at_call foreign (handle_set_other foreign handles)
          (same (by rw [runs, length_letGo])) calls
  | forsaken n m call act at_call stops runs handles calls =>
      have length : d.runs.length = c.runs.length := by rw [runs, length_letGo]
      rcases Decidable.em (call.handle = i) with own | foreign
      · rw [own] at handles calls
        obtain ⟨h, r, under⟩ := standing.stopping_of at_call own stops
        obtain ⟨r', latest⟩ := under.toLatestOf.goesOn goesOn length
        exact .deserted { h with lock := none } m r' {
          latest with
          handle := by rw [handles, List.getElem?_modify, under.handle]; simp
          lock := rfl
          running := under.running
          runtime := under.runtime
          free := under.free.set calls rfl
          cause := .inl (kept n call act at_call own (by simp [stops])) }
      · refine other at_call foreign ?_ (same length) calls
        rw [handles, List.getElem?_modify]
        simp [foreign]
  | disposed j m h r handle unused runtime run runs handles calls events =>
      have length : d.runs.length = c.runs.length := by rw [runs, length_letGo]
      rcases Decidable.em (j = i) with rfl | foreign
      · obtain ⟨r', going⟩ := standing.active_of handle runtime
        obtain ⟨r', latest⟩ := going.toLatestOf.goesOn goesOn length
        exact .deserted { h with disposed := true, runtime := none } m r' {
          latest with
          handle := handle_set_own handle handles
          lock := going.lock
          running := going.running
          runtime := rfl
          free := fun n call hn hc own => going.free n call hn (calls ▸ hc) own
          cause := .inr ⟨unused.given, fun n call hc own => unused.done (calls ▸ hc) own⟩ }
      · exact aside (handle_set_other foreign handles) (same length) (callsAside_same calls)

theorem Standing.perform (standing : Standing forsaken i c) (awaited : c.Awaited)
    (h : c.perform a = some d)
    (kept : ∀ n call, a = .abandon n → c.calls[n]? = some call → call.handle = i →
      call.stage.stopping? ≠ none → forsaken) : Standing forsaken i d := by
  rcases steady_or_turning h with steady | turn
  · exact (aside_of_steady steady i).standing standing
  · exact standing.turn awaited turn kept

/-! ### Whole runs -/

variable {ok : Cluster → Act → Prop} {epoch : Nat} {m : Store.Memory}

theorem awaited_of_reaches (h : Reaches ok (onStore epoch m) c) : c.Awaited :=
  h.invariant (by simp [Awaited, onStore]) fun _ _ _ awaited _ hp => awaited.perform hp

theorem fitted_of_reaches (h : Reaches ok (onStore epoch m) c) : c.Fitted :=
  h.invariant (by simp [Fitted, onStore]) fun _ _ _ fitted _ hp => fitted.perform hp

/-- The caller of a stop of handle `i` does not give up once the stop is under way. -/
def Patient (i : Nat) : Cluster → Act → Prop
  | c, .abandon n => ∀ call, c.calls[n]? = some call → call.handle = i →
      call.stage.stopping? = none
  | _, _ => True

theorem standing_of_reaches (h : Reaches ok (onStore epoch m) c)
    (kept : ∀ c n call, ok c (.abandon n) → c.calls[n]? = some call → call.handle = i →
      call.stage.stopping? ≠ none → forsaken) : Standing forsaken i c := by
  refine (h.invariant (I := fun c => c.Awaited ∧ Standing forsaken i c) ⟨?_, .quiescent ?_⟩ ?_).2
  · simp [Awaited, onStore]
  · constructor <;> simp [onStore, FreeBut]
  · rintro c a d ⟨awaited, standing⟩ allowed hp
    refine ⟨awaited.perform hp, standing.perform awaited hp fun n call act hc own under => ?_⟩
    exact kept c n call (act ▸ allowed) hc own under

/-- Where stops may be given up, a handle may have been left for good. -/
theorem anyhow_of_reaches (h : Reaches ok (onStore epoch m) c) (j : Nat) : Standing True j c :=
  standing_of_reaches h fun _ _ _ _ _ _ _ => trivial

theorem standing_of_patient (h : Reaches ok (onStore epoch m) c)
    (patient : ∀ c a, ok c a → Patient i c a) : Standing False i c :=
  standing_of_reaches h fun c n call allowed hc own under =>
    under (patient c (.abandon n) allowed call hc own)

end Cluster

end ReliableQueue.Queue
