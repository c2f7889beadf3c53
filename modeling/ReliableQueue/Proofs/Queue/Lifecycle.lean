import ReliableQueue.Proofs.Queue.StartStop

/-!
The life of a queue with one handle that is never given up and on which nothing is recovered.
Its runs follow one another: only the latest may have a fetcher that is live or a channel with a
task in it, and nothing has either once a stop releases what it took.
-/

namespace ReliableQueue.Queue

namespace Cluster

variable {name : String} {a : Act} {c d : Cluster}

/-- Acts with one handle for the queue stored under `name`, which is not given up. Nothing
is recovered, and the caller of a stop does not give up once the stop is under way. -/
def Sequential (name : String) : Cluster → Act → Prop
  | c, .build n _ => n = name ∧ c.handles = []
  | _, .invoke _ (.recover _) => False
  | c, .abandon n => ∀ call, c.calls[n]? = some call → call.stage.stopping? = none
  | _, .drop _ => False
  | _, .sweep .. => False
  | _, _ => True

/-- There is one handle at most, its owner has it, and nothing is recovered. -/
structure Solo (c : Cluster) : Prop where
  single : c.handles.length ≤ 1
  tended : c.Tended
  asks : c.Asks fun _ request => ∀ maxAge, request ≠ .recover maxAge
  sole : Sole 0 c

theorem solo_empty (epoch : Nat) : (empty epoch).Solo where
  single := Nat.zero_le 1
  tended := tended_empty epoch
  asks := by simp [Asks, empty]
  sole := {
    course := .resting (by constructor <;> simp [empty, Intact, Lossless, events])
    apart := by simp [Apart, empty]
    asks := by simp [Asks, empty] }

theorem Sequential.onQueue (h : Sequential name c a) : OnQueue name c a := by
  cases a with
  | build n options => exact h.1
  | _ => trivial

/-- The one handle alone starts runs. -/
theorem Sequential.soleClaimer (ok : Sequential name c a) (single : c.handles.length ≤ 1)
    (h : c.perform a = some d) : SoleClaimer name 0 c a := by
  cases a with
  | build n options => exact ok.1
  | abandon n => exact ok
  | invoke i request =>
      cases request with
      | start parent =>
          obtain ⟨owned, -⟩ := invoke_of_perform h
          obtain ⟨k, hk, -⟩ := Option.any_eq_true _ _ |>.mp owned
          obtain ⟨hi, -⟩ := List.getElem?_eq_some_iff.mp hk
          show i = 0
          omega
      | _ => trivial
  | _ => trivial

theorem single_perform (ok : Sequential name c a) (single : c.handles.length ≤ 1)
    (h : c.perform a = some d) : d.handles.length ≤ 1 := by
  cases handles_of_perform h with
  | same handles => rwa [handles]
  | set i k k' handle handles => rwa [handles, List.length_set]
  | built n options act handles =>
      subst act
      rw [handles, ok.2]
      exact Nat.le_refl 1

theorem Solo.perform (solo : c.Solo) (ok : Sequential name c a) (h : c.perform a = some d) :
    d.Solo where
  single := single_perform ok solo.single h
  tended := by
    refine solo.tended.perform h ?_ ?_
    · rintro i rfl
      exact ok
    · rintro i t config rfl
      exact ok
  asks := by
    refine solo.asks.perform h ?_
    rintro i request rfl maxAge rfl
    exact ok
  sole := solo.sole.perform (ok.soleClaimer solo.single h) h

/-! ### What a handle that is alone has -/

theorem Solo.not_gone (solo : c.Solo) (h : Handle) : ¬Gone 0 c h := by
  intro gone
  have given := gone.given
  rw [solo.tended.owned h (List.mem_of_getElem? gone.handle)] at given
  cases given

theorem Solo.recovery? (solo : c.Solo) {call : Call} (hc : call ∈ c.calls) :
    call.stage.recovery? = none := by
  have asks := solo.asks call hc
  cases hs : call.stage with
  | recovering maxAge recovery => exact absurd rfl (asks _ (by rw [hs]; rfl) maxAge)
  | _ => rfl

theorem Latest.eq_of_busy {n i : Nat} {q r : Run} (latest : Latest c n q)
    (hr : c.runs[i]? = some r) (busy : ¬r.Spent) : n = i ∧ q = r := by
  rcases Decidable.em (i = n) with rfl | apart
  · exact ⟨rfl, Option.some.inj (latest.run.symm.trans hr)⟩
  · exact absurd (latest.spent i r apart hr) busy

/-- A run that is not over is the latest, and its channel is kept. -/
theorem Solo.latest {i : Nat} {r : Run} (solo : c.Solo) (hr : c.runs[i]? = some r)
    (busy : ¬r.Spent) : Latest c i r ∧ r.kept = true := by
  cases solo.sole.course with
  | resting rest => exact absurd (rest.spent i r hr) busy
  | going h n q going =>
      obtain ⟨rfl, rfl⟩ := going.eq_of_busy hr busy
      exact ⟨going.toLatest, going.kept⟩
  | stopping h n q stop s under =>
      obtain ⟨rfl, rfl⟩ := under.eq_of_busy hr busy
      exact ⟨under.toLatest, under.kept⟩
  | gone h gone => exact (solo.not_gone h gone).elim

/-- Only a stop under way has taken tasks. -/
theorem left_of_stop {n : Nat} {call : Call} (hc : c.calls[n]? = some call)
    (free : ∀ (m : Nat) (call : Call), m ≠ n → c.calls[m]? = some call →
      call.stage.stopping? = none) :
    c.left = call.stage.left :=
  flatMap_of_only hc fun m other hm ho => Stage.left_of_stopping? (free m other hm ho)

theorem left_of_stop_set {n : Nat} {call : Call} {s : Stage} (hc : c.calls[n]? = some call)
    (free : ∀ (m : Nat) (call : Call), m ≠ n → c.calls[m]? = some call →
      call.stage.stopping? = none)
    (calls : d.calls = c.calls.set n ⟨call.handle, s⟩) : d.left = s.left := by
  obtain ⟨hn, -⟩ := List.getElem?_eq_some_iff.mp hc
  have hd : d.calls[n]? = some ⟨call.handle, s⟩ := by rw [calls, List.getElem?_set_self hn]
  refine left_of_stop hd fun m other hm ho => ?_
  rw [calls, List.getElem?_set_ne (Ne.symm hm)] at ho
  exact free m other hm ho

/-- While a fetcher lives, no stop has taken tasks. -/
theorem Solo.left_of_live {i : Nat} {r : Run} (solo : c.Solo) (hr : c.runs[i]? = some r)
    (live : r.fetcher.isLive = true) : c.left = [] := by
  have busy (spent : r.Spent) : False := by
    rw [Run.spent_iff, live] at spent
    cases spent.1
  have none (free : ∀ (n : Nat) (call : Call), c.calls[n]? = some call →
      call.stage.stopping? = none) : c.left = [] :=
    List.flatMap_eq_nil_iff.mpr fun call hc => by
      obtain ⟨n, hn⟩ := List.getElem?_of_mem hc
      exact Stage.left_of_stopping? (free n call hn)
  cases solo.sole.course with
  | resting rest => exact none rest.free
  | going h n q going => exact none going.free
  | gone h gone => exact none gone.free
  | stopping h n q stop s under =>
      rw [left_of_stop under.call under.free]
      cases s with
      | releasing m left =>
          obtain ⟨-, rfl⟩ := under.eq_of_busy hr busy
          exact (busy under.stage.2).elim
      | _ => rfl

/-- A channel is let go when nothing is in it. -/
theorem Solo.letGo {i : Nat} (solo : c.Solo) (cause : Forsaken c i) :
    (c.letGo i).inHand = c.inHand ∧ (c.letGo i).buffered = c.buffered ∧
      (c.letGo i).events = c.events := by
  cases cause with
  | stopped n call stage releasing =>
      obtain ⟨-, k, r, under⟩ := solo.sole.course.stop (m := i) stage (by rw [releasing]; rfl)
      have ends := under.stage
      rw [releasing] at ends
      have spent : r.Spent := ends.2
      refine ⟨?_, ?_, events_letGo_of_spent under.run spent⟩
      all_goals rcases c.letGo_cases i with ⟨runs, -⟩ | ⟨q, hq, runs, -⟩
      · rw [inHand, runs, inHand]
      · rw [inHand, runs]
        exact flatMap_set_of_eq hq (by simp [Run.inHand])
      · rw [buffered, runs, buffered]
      · obtain rfl := Option.some.inj (hq.symm.trans under.run)
        rw [buffered, runs]
        exact flatMap_set_of_eq hq (Run.reap_same (r := { q with kept := false }) (.inr spent.2)).1
  | disposed j h handle given =>
      rw [solo.tended.owned h (List.mem_of_getElem? handle)] at given
      cases given

end Cluster

end ReliableQueue.Queue
