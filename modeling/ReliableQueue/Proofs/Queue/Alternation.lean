import ReliableQueue.Proofs.Queue.Turns

/-!
A handle as a machine of two states. Whatever its starts and stops overlap with, they answer as if
they had been made one after the other, in the order in which they return: a start is refused
exactly while an earlier one stands that no stop has followed, and a stop is never refused. The
loops that are live are those of one run, each run is that of one start that was not refused, and a
start or a stop that has not returned waits for nothing but a live loop.
-/

namespace ReliableQueue.Queue

variable {i : Nat} {c : Cluster} {epoch : Nat} {m : Store.Memory}
  {ok : Cluster → Act → Prop}

namespace Cluster

/-- Whether the handle runs, how many runs it has had and what its turns answered, told by the
turns. -/
theorem ruled_of_turns {ts : List Turn} (h : Turns ok i (onStore epoch m) ts c)
    (patient : ∀ c a, ok c a → Patient i c a) :
    (c.isRunning i = true ↔ ¬Rested ts) ∧ (c.share i).runs.length = ts.countP Turn.started ∧
      ∀ later t earlier, ts = later ++ t :: earlier → t.Lawful earlier := by
  induction h with
  | refl =>
      refine ⟨⟨by rintro ⟨⟩, fun rested => (rested fun later s earlier split => ?_).elim⟩, rfl,
        fun later t earlier split => ?_⟩
      all_goals simp at split
  | @perform ts b d a turns allowed hp ih =>
      obtain ⟨running, runs, lawful⟩ := ih
      have standing := standing_of_patient turns.reaches patient
      have next {t : Turn} (now : t.Lawful ts) (later : List Turn) (u : Turn)
          (earlier : List Turn) (split : t :: ts = later ++ u :: earlier) : u.Lawful earlier := by
        cases later with
        | nil =>
            cases split
            exact now
        | cons v later =>
            cases split
            exact lawful later u earlier rfl
      cases turn : turn? i b d a with
      | none =>
          obtain ⟨same, kept⟩ := kept_of_no_turn hp turn
          exact ⟨same ▸ running, kept.trans runs, lawful⟩
      | some t =>
          show _ ∧ _ = (t :: ts).countP Turn.started ∧
            ∀ later u earlier, t :: ts = later ++ u :: earlier → u.Lawful earlier
          rw [Option.toList_some, List.singleton_append, rested_cons, List.countP_cons]
          obtain ⟨n, request, result⟩ := t
          cases answer_of_turn hp standing turn with
          | started parent asked answered idle now r own appended =>
              cases asked
              cases answered
              have rested : Rested ts := Classical.not_not.mp fun busy => by
                rw [running.mpr busy] at idle
                cases idle
              refine ⟨by simp [now, Turn.started, Turn.stopped], ?_, next ⟨?_, by rintro ⟨⟩⟩⟩
              · simp [share, appended, own, ← runs, Turn.started]
              · exact fun _ _ => .inl ⟨rested, rfl⟩
          | refused parent asked answered busy same =>
              cases asked
              cases answered
              subst same
              have kept : (b.setCall n (.finished b.now (.error .alreadyRunning))).isRunning i =
                b.isRunning i := rfl
              refine ⟨?_, ?_, next ⟨fun _ _ => .inr ⟨running.mp busy, rfl⟩, by rintro ⟨⟩⟩⟩
              · simp [kept, running, Turn.started, Turn.stopped]
              · exact runs
          | stopped asked answered idle kept =>
              cases asked
              cases answered
              refine ⟨by simp [idle, Turn.stopped], ?_, next ⟨by rintro _ ⟨⟩, fun _ => rfl⟩⟩
              exact (length_share_same kept).trans runs

/-! ### Calls that wait -/

/-- Call `n` is a start or a stop of handle `i` that has not returned. -/
def TurnWaits (i n : Nat) (c : Cluster) : Prop :=
  ∃ call request, c.calls[n]? = some call ∧ call.handle = i ∧
    call.stage.request? = some request ∧ request.isTurn = true

theorem handle_of_call (hr : Reaches ok (onStore epoch m) c) {n : Nat} {call : Call}
    (hc : c.calls[n]? = some call) : ∃ h, c.handles[call.handle]? = some h := by
  induction hr generalizing n call with
  | refl => cases hc
  | @perform b d a hr allowed hp ih =>
      have later {j : Nat} (there : ∃ h, b.handles[j]? = some h) : ∃ h, d.handles[j]? = some h := by
        obtain ⟨h, hh⟩ := there
        obtain ⟨h', hh', -⟩ := handle_of_perform hp hh
        exact ⟨h', hh'⟩
      cases calls_of_perform hp with
      | same calls => exact later (ih (calls ▸ hc))
      | set k old s at_call act calls =>
          rw [calls] at hc
          rcases getElem?_set_cases hc with ⟨-, rfl⟩ | ⟨-, hc⟩
          · exact later (show ∃ h, b.handles[old.handle]? = some h from ih at_call)
          · exact later (ih hc)
      | made j request act owned calls =>
          rw [calls] at hc
          rcases List.mem_append.mp (List.mem_of_getElem? hc) with hc | hc
          · obtain ⟨k, hk⟩ := List.getElem?_of_mem hc
            exact later (ih hk)
          · obtain rfl := List.mem_singleton.mp hc
            obtain ⟨h, hh, -⟩ := Option.any_eq_true _ _ |>.mp owned
            exact later ⟨h, hh⟩

/-- A stop under way goes on unless the run that it ends is live. -/
theorem stop_goesOn {n k : Nat} {call : Call} {h : Handle} {r : Run}
    (hc : c.calls[n]? = some call) (hh : c.handles[call.handle]? = some h)
    (stops : call.stage.stopping? = some k) (run : c.runs[k]? = some r) (dead : r.isLive = false) :
    (c.stepCall n).isSome = true := by
  simp only [Run.isLive, Bool.or_eq_false_iff, List.any_eq_false, Bool.not_eq_true] at dead
  cases hs : call.stage with
  | joining j loop =>
      rw [hs] at stops
      cases stops
      simp only [stepCall, hc, hh, hs, run, Option.bind_eq_bind, Option.bind_some]
      split
      · next w hw => simp [joined, dead.2 w (List.mem_of_getElem? hw)]
      · simp [joined, dead.1]
  | draining j =>
      rw [hs] at stops
      cases stops
      simp [stepCall, hc, hh, hs, run]
  | releasing j left => cases left <;> simp [stepCall, hc, hh, hs]
  | _ =>
      rw [hs] at stops
      cases stops

/-- A start or a stop that has not returned and stops no run yet is to be entered. -/
theorem entering_of_turn {s : Stage} {request : Request} (asked : s.request? = some request)
    (turn : request.isTurn = true) (still : s.stopping? = none) : s = .entering request := by
  cases s with
  | entering request' =>
      cases asked
      rfl
  | recovering maxAge recovery =>
      cases asked
      cases turn
  | finished time result | dropped => cases asked
  | joining k loop | draining k | releasing k left => cases still

/-- The lock of a handle is held by a stop that is under way. -/
theorem Standing.stop_of_lock {h : Handle} {s : Nat} (standing : Standing False i c)
    (handle : c.handles[i]? = some h) (lock : h.lock = some s) :
    ∃ call k, c.calls[s]? = some call ∧ call.handle = i ∧ call.stage.stopping? = some k := by
  cases standing with
  | quiescent rest =>
      rw [(rest.handle h handle).lock] at lock
      cases lock
  | active h' k r going =>
      obtain rfl := Option.some.inj (handle.symm.trans going.handle)
      rw [going.lock] at lock
      cases lock
  | stopping h' k r s' stage under =>
      obtain rfl := Option.some.inj (handle.symm.trans under.handle)
      obtain rfl := Option.some.inj (lock.symm.trans under.lock)
      exact ⟨_, k, under.call, rfl, under.stops⟩
  | deserted h' k r left =>
      obtain rfl := Option.some.inj (handle.symm.trans left.handle)
      rw [left.lock] at lock
      cases lock

/-- A start or a stop is entered where nothing holds the lock. -/
theorem enter_goesOn {n : Nat} {call : Call} {h : Handle} {request : Request}
    (standing : Standing False i c) (hc : c.calls[n]? = some call) (own : call.handle = i)
    (handle : c.handles[i]? = some h) (stage : call.stage = .entering request)
    (turn : request.isTurn = true) (lock : h.lock = none) : (c.stepCall n).isSome = true := by
  subst own
  simp only [stepCall, hc, handle, stage, Option.bind_eq_bind, Option.bind_some]
  cases request with
  | start parent => cases running : h.running <;> simp [enter, lock, running]
  | stop =>
      cases runtime : h.runtime with
      | none => simp [enter, lock, runtime]
      | some k =>
          obtain ⟨r, going⟩ := standing.active_of handle runtime
          simp [enter, lock, runtime, going.run]
  | _ => cases turn

/-- Unless a run of the handle is live, some start or stop of it that has not returned goes on. -/
theorem turn_goesOn (hr : Reaches ok (onStore epoch m) c)
    (patient : ∀ c a, ok c a → Patient i c a) {n : Nat} (waits : c.TurnWaits i n)
    (dead : ∀ r ∈ c.runs, r.handle = i → r.isLive = false) :
    ∃ s, c.TurnWaits i s ∧ (c.stepCall s).isSome = true := by
  have standing := standing_of_patient hr patient
  have waiting := waits
  obtain ⟨call, request, hc, own, asked, turn⟩ := waiting
  obtain ⟨h, handle⟩ := handle_of_call hr hc
  rw [own] at handle
  -- A stop under way goes on, whichever call waits.
  have stop {s k : Nat} {other : Call} (at_call : c.calls[s]? = some other)
      (owner : other.handle = i) (stops : other.stage.stopping? = some k) :
      ∃ s, c.TurnWaits i s ∧ (c.stepCall s).isSome = true := by
    obtain ⟨h', r, under⟩ := standing.stopping_of at_call owner stops
    refine ⟨s, ⟨other, .stop, at_call, owner, ?_, rfl⟩, stop_goesOn at_call (owner ▸ under.handle)
      stops under.run (dead r (List.mem_of_getElem? under.run) under.own)⟩
    cases hs : other.stage <;> rw [hs] at stops <;> first | rfl | cases stops
  cases stops : call.stage.stopping? with
  | some k => exact stop hc own stops
  | none =>
      cases lock : h.lock with
      | some s =>
          obtain ⟨other, k, at_call, owner, under⟩ := standing.stop_of_lock handle lock
          exact stop at_call owner under
      | none =>
          have stage := entering_of_turn asked turn stops
          exact ⟨n, waits, enter_goesOn standing hc own handle stage turn lock⟩

/-! ### Whole runs -/

/-- Handle `i` of `c` after the turns `ts`, latest first. -/
structure InTurn (i : Nat) (ts : List Turn) (c : Cluster) : Prop where
  /-- A start was refused exactly when an earlier one stood, and a stop never was. -/
  lawful : ∀ later t earlier, ts = later ++ t :: earlier → t.Lawful earlier
  /-- The handle runs while a start stands that no stop has followed. -/
  running : c.isRunning i = true ↔ ¬Rested ts
  /-- A start that is refused changes nothing. -/
  refused : ∀ a d t, c.perform a = some d → turn? i c d a = some t → t.result ≠ .ok .done →
    d = c.setCall t.call (.finished c.now (.error .alreadyRunning))
  /-- Each run is that of one start that was not refused. -/
  runs : (c.share i).runs.length = ts.countP Turn.started
  /-- The loops that are live are those of one run. -/
  single : ((c.share i).runs.filter Run.isLive).length ≤ 1
  fetchers : ((c.share i).runs.filter (·.fetcher.isLive)).length ≤ 1
  workers : ∀ h, c.handles[i]? = some h →
    ((c.share i).runs.flatMap (·.workers.filter Worker.isLive)).length ≤ h.options.workers
  /-- While a start or a stop has not returned, one of them can go on, or a loop is live. -/
  waiting : ∀ n, c.TurnWaits i n → (∃ s, c.TurnWaits i s ∧ (c.stepCall s).isSome = true) ∨
    ∃ r ∈ (c.share i).runs, r.isLive = true

theorem length_filter_share_le {p : Run → Bool} (standing : Standing False i c)
    (idle : ∀ r : Run, r.Spent → p r = false) : ((c.share i).runs.filter p).length ≤ 1 := by
  have one : ((c.share i).runs.flatMap fun r => if p r = true then [r] else []).length ≤ 1 :=
    length_share_le standing (fun r spent => by simp [idle r spent]) fun r _ _ => by
      split <;> simp
  rwa [← flatMap_filter, List.flatMap_singleton'] at one

/-- Starts and stops of a handle answer in the order in which they return, and the handle is as
they say, whatever their calls overlap with. -/
theorem in_turn {ts : List Turn} (h : Turns ok i (onStore epoch m) ts c)
    (patient : ∀ c a, ok c a → Patient i c a) : c.InTurn i ts := by
  have hr := h.reaches
  have standing := standing_of_patient hr patient
  obtain ⟨running, runs, lawful⟩ := ruled_of_turns h patient
  refine {
    lawful, running, runs
    refused := fun a d t hp turn failed => ?_
    single := length_filter_share_le standing fun r spent => spent.1
    fetchers := length_filter_share_le standing fun r spent => ((Run.spent_iff r).mp spent).1
    workers := fun hd handle => ?_
    waiting := fun n waits => ?_ }
  · cases answer_of_turn hp standing turn with
    | started _ _ result | stopped _ result => exact (failed result).elim
    | refused _ _ _ _ same => exact same
  · refine length_share_le standing (fun r spent => ?_) fun r hq own => ?_
    · refine List.filter_eq_nil_iff.mpr fun w hw => ?_
      obtain ⟨j, hj⟩ := List.getElem?_of_mem hw
      simp [((Run.spent_iff r).mp spent).2.1 j w hj]
    · obtain ⟨n, run⟩ := List.getElem?_of_mem hq
      obtain ⟨hd', hh', fits⟩ := fitted_of_reaches hr n r run
      obtain rfl := Option.some.inj (handle.symm.trans (own ▸ hh'))
      exact fits.workers ▸ List.length_filter_le _ _
  · rcases Classical.em (∃ r ∈ c.runs, r.handle = i ∧ r.isLive = true) with
      ⟨r, hq, own, live⟩ | dead
    · exact .inr ⟨r, by simp [share, hq, own], live⟩
    · exact .inl (turn_goesOn hr patient waits fun r hq own =>
        Bool.eq_false_iff.mpr fun live => dead ⟨r, hq, own, live⟩)

/-- A queue is started, a second start is refused, and after a stop a third one succeeds. -/
def restarting : List Act := List.flatten [
  [.build "q" { workers := 1 }, .newToken, .invoke 0 (.start ⟨[0]⟩), .invoke 0 (.start ⟨[0]⟩),
    .invoke 0 .stop, .step (.call 0), .step (.call 1), .step (.call 2)],
  List.replicate 3 (.step (.fetcher 0)),
  List.replicate 3 (.step (.worker 0 0)),
  List.replicate 4 (.step (.call 2)),
  [.invoke 0 (.start ⟨[0]⟩), .step (.call 3)]]

def restarted : Cluster := ((onStore 0 {}).run restarting).get (by decide +kernel)

theorem run_restarting : (onStore 0 {}).run restarting = some restarted :=
  (Option.some_get _).symm

theorem in_turn_restarted :
    restarted.InTurn 0 (turnsOf 0 (onStore 0 {}) [] restarting) ∧
      (turnsOf 0 (onStore 0 {}) [] restarting).map (fun t => (t.call, t.started, t.stopped)) =
        [(3, true, false), (2, false, true), (1, false, false), (0, true, false)] := by
  have turns : Turns (Patient 0) 0 (onStore 0 {}) (turnsOf 0 (onStore 0 {}) [] restarting)
      restarted := .of_run .refl (by simp [restarting, Patient]) run_restarting
  exact ⟨in_turn turns fun _ _ allowed => allowed, by decide +kernel⟩

end Cluster

end ReliableQueue.Queue
