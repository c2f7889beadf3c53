import ReliableQueue.Proofs.Queue.Shares

/-!
What is lost of tasks that one handle alone claims, while no stop of it is given up. A channel is
given up with something in it only when the handle comes to its end, and then it is the last one.
-/

namespace ReliableQueue.Queue

variable {i : Nat} {a : Act} {c d : Cluster} {epoch : Nat} {m : Store.Memory}
  {ok : Cluster → Act → Prop}

/-- Nothing is in a run or will be, but for what its fetcher has in hand. -/
def Run.Hollow (r : Run) : Prop := (∀ j, r.Ended j) ∧ (r.Spent ∨ r.Closed)

namespace Run

theorem Hollow.buffer {r : Run} (hollow : r.Hollow) : r.channel.buffer = [] :=
  hollow.2.elim And.right And.right

theorem Hollow.continues {r r' : Run} (hollow : r.Hollow) (on : r.Continues r') : r'.Hollow :=
  ⟨fun j => on.worker j (hollow.1 j), hollow.2.imp on.spent on.closed⟩

theorem Spent.hollow {r : Run} (spent : r.Spent) : r.Hollow :=
  ⟨((spent_iff r).mp spent).2.1, .inl spent⟩

/-- A channel goes away only with the last worker. -/
theorem hollow_of_reap {r : Run} (lost : r.reap.2 ≠ []) : r.reap.1.Hollow := by
  unfold reap at lost ⊢
  split
  · next gone =>
      simp only [isAbandoned, Bool.and_eq_true, Bool.not_eq_true', List.any_eq_false,
        Bool.not_eq_true] at gone
      exact ⟨fun j w hw => gone.2 w (List.mem_of_getElem? hw), .inr ⟨rfl, rfl⟩⟩
  · next stays =>
      rw [if_neg stays] at lost
      exact (lost rfl).elim

end Run

namespace Cluster

/-- No more than `bound` tasks were lost, and after that no run of handle `i` has any to lose. -/
def LossesWithin (i bound : Nat) (c : Cluster) : Prop :=
  c.losses = [] ∨ c.losses.length ≤ bound ∧ ∀ r ∈ c.runs, r.handle = i → r.Hollow

/-- Nothing was lost; or handle `i` was given up, and what was lost was in its last channel. -/
inductive Lost (i : Nat) (c : Cluster) : Prop where
  | nothing (losses : c.losses = []) (safe : ∀ r ∈ c.runs, r.handle = i → r.kept = true ∨ r.Spent)
  | channel (h : Handle) (handle : c.handles[i]? = some h) (given : h.owned = false)
      (deaf : Deaf i c) (losses : LossesWithin i h.options.bufferSize c)

variable {n : Nat} {q mid : Run} {es : List Event}

/-- A run of a handle loses what is in its channel, and then no run of the handle has anything
that could be lost. -/
theorem LossesWithin.moving {bound : Nat} (within : LossesWithin i bound c)
    (moving : Moving a c d n q mid es) (own : q.handle = i) (standing : Standing True i c)
    (room : mid.channel.buffer.length ≤ bound) : LossesWithin i bound d := by
  have losses := moving.losses
  have others {P : Run → Prop} (now : P mid.reap.1)
      (rest : ∀ k r, k ≠ n → c.runs[k]? = some r → r.handle = i → P r) :
      ∀ r ∈ d.runs, r.handle = i → P r := by
    intro r hr own
    obtain ⟨k, hk⟩ := List.getElem?_of_mem hr
    rw [moving.runs] at hk
    rcases getElem?_set_cases hk with ⟨-, rfl⟩ | ⟨apart, hk⟩
    · exact now
    · exact rest k r apart hk own
  have hollow (all : ∀ r ∈ c.runs, r.handle = i → r.Hollow) : mid.Hollow :=
    (all q (List.mem_of_getElem? moving.run) own).continues moving.on
  rcases Classical.em (mid.reap.2 = []) with none | some
  · rw [none] at losses
    rw [LossesWithin, losses]
    exact within.imp_right fun ⟨few, all⟩ => ⟨few, others ((hollow all).continues
      mid.continues_reap) fun k r _ hk => all r (List.mem_of_getElem? hk)⟩
  · have full : mid.channel.buffer ≠ [] := fun empty => some (Run.reap_same (.inr empty)).2
    have before : c.losses = [] := within.resolve_right fun ⟨_, all⟩ => full (hollow all).buffer
    refine .inr ⟨?_, others (Run.hollow_of_reap some) fun k r apart hk own' => ?_⟩
    · have lost := mid.reap_cases.resolve_left fun same => some same.2
      have ids : (mid.channel.buffer.map (Event.discarded ·.id)).reverse.flatMap
          Event.discardedIds = mid.channel.buffer.reverse.map Claim.id := by
        rw [← List.map_reverse, List.flatMap_map, List.map_eq_flatMap]
        rfl
      rw [losses, before, lost.2, ids, List.append_nil, List.length_map, List.length_reverse]
      exact room
    · -- The run that lost something was not over, so all others are.
      obtain ⟨k', spent⟩ := standing.one
      obtain rfl : n = k' := Classical.byContradiction fun apart' =>
        full (moving.on.spent (spent n q apart' moving.run own)).2
      exact (spent k r apart hk own').hollow

/-- A handle that was given up and is not used any more loses at most what is in its channel. -/
theorem Lost.given {h : Handle} (handle : c.handles[i]? = some h) (given : h.owned = false)
    (deaf : Deaf i c) (hp : c.perform a = some d)
    (losses : LossesWithin i h.options.bufferSize d) : Lost i d := by
  obtain ⟨h', hh', size, still⟩ := handle_of_perform hp handle
  exact .channel h' hh' (still given) (deaf.perform handle given hp) (size ▸ losses)

/-- Nothing is lost, and the runs of the handle are as they were. -/
theorem Lost.same (was : Lost i c) (h : c.perform a = some d) (losses : d.losses = c.losses)
    (runs : ∀ r ∈ d.runs, r.handle = i → r ∈ c.runs) : Lost i d := by
  cases was with
  | nothing lost safe =>
      exact .nothing (losses.trans lost) fun r hr own => safe r (runs r hr own) own
  | channel hd handle given deaf lost =>
      refine .given handle given deaf h ?_
      rw [LossesWithin, losses]
      exact lost.imp_right fun ⟨few, hollow⟩ => ⟨few, fun r hr own => hollow r (runs r hr own) own⟩

theorem Lost.launched {call : Call} {h : Handle} {r : Run} (was : Lost i c)
    (at_call : c.calls[n]? = some call) (live : call.stage.isLive = true)
    (own : call.handle = i) (fresh : r.Fresh call.handle h.options)
    (runs : d.runs = c.runs ++ [r]) (losses : d.losses = c.losses) : Lost i d := by
  cases was with
  | channel hd handle given deaf lost =>
      rw [deaf n call at_call own] at live
      cases live
  | nothing lost safe =>
      refine .nothing (losses.trans lost) fun q hq own => ?_
      rw [runs] at hq
      rcases List.mem_append.mp hq with hq | hq
      · exact safe q hq own
      · exact .inl (List.mem_singleton.mp hq ▸ fresh.kept)

/-- A run of the handle goes on. It is kept or over, unless the handle comes to its end. -/
theorem Lost.moving (was : Lost i c) (moving : Moving a c d n q mid es) (own : q.handle = i)
    (hp : c.perform a = some d) (patient : Patient i c a) (fitted : c.Fitted)
    (standing : Standing True i c) : Lost i d := by
  obtain ⟨h, hh, fits⟩ := fitted n q moving.run
  rw [own] at hh
  have last {hd : Handle} (handle : c.handles[i]? = some hd) (given : hd.owned = false)
      (deaf : Deaf i c) (within : LossesWithin i hd.options.bufferSize c) : Lost i d := by
    obtain rfl := Option.some.inj (handle.symm.trans hh)
    exact .given handle given deaf hp
      (within.moving moving own standing (moving.on.fits _ fits).buffer)
  cases was with
  | channel hd handle given deaf lost => exact last handle given deaf lost
  | nothing lost safe =>
      have stays (safe' : mid.kept = true ∨ mid.Spent) : Lost i d := by
        have losses := moving.losses
        rw [(Run.reap_same (safe'.imp_right And.right)).2] at losses
        refine .nothing (losses.trans lost) fun r hr own => ?_
        rw [moving.runs] at hr
        rcases List.mem_or_eq_of_mem_set hr with hr | rfl
        · exact safe r hr own
        · rw [Run.reap_kept]
          exact safe'.imp_right mid.continues_reap.spent
      rcases moving.kept with same | reason
      · exact stays ((safe q (List.mem_of_getElem? moving.run) own).imp same.trans moving.on.spent)
      · cases reason with
        | spent spent => exact stays (.inr (moving.on.spent spent))
        | abandoned k call act at_call own' stops =>
            subst act
            exact (stops (patient call at_call (own'.trans own))).elim
        | disposed hd handle unused =>
            rw [own] at handle unused
            exact last handle unused.given (fun k call hc own => unused.done hc own) (.inl lost)

theorem Lost.perform (was : Lost i c) (h : c.perform a = some d) (change : RunChange a c d)
    (patient : Patient i c a) (idle : OthersIdle i c) (fitted : c.Fitted)
    (standing : Standing True i c) (sole : d.SoleClaims i) : Lost i d := by
  cases change with
  | still runs losses => exact was.same h losses fun r hr _ => runs ▸ hr
  | launched n call hd r at_call live fresh none runs losses =>
      rcases Decidable.em (call.handle = i) with own | foreign
      · exact was.launched at_call live own fresh runs losses
      · refine was.same h losses fun q hq own => ?_
        rw [runs] at hq
        refine (List.mem_append.mp hq).resolve_right fun new => ?_
        obtain rfl := List.mem_singleton.mp new
        exact foreign (fresh.handle.symm.trans own)
  | moved n q mid es moving =>
      rcases Decidable.em (q.handle = i) with own | foreign
      · exact was.moving moving own h patient fitted standing
      · have losses := moving.losses
        rw [(Run.reap_same (.inr (idle.moving moving sole foreign).buffer)).2] at losses
        refine was.same h losses fun r hr own => ?_
        rw [moving.runs] at hr
        refine (List.mem_or_eq_of_mem_set hr).resolve_right fun new => ?_
        rw [new, Run.reap_handle, moving.on.handle] at own
        exact foreign own

theorem lost_of_reaches (h : Reaches ok (onStore epoch m) c)
    (patient : ∀ c a, ok c a → Patient i c a) (sole : c.SoleClaims i) :
    OthersIdle i c ∧ Lost i c := by
  induction h with
  | refl => exact ⟨by constructor <;> simp [onStore], .nothing rfl (by simp [onStore])⟩
  | @perform b c a hr allowed hp ih =>
      have awaited := awaited_of_reaches hr
      have standing := anyhow_of_reaches hr
      obtain ⟨idle, lost⟩ := ih (sole.before (grows_of_perform hp awaited standing))
      have change : RunChange a b c := by
        refine runChange_of_perform hp awaited standing fun n call act hc => ?_
        rcases Decidable.em (call.handle = i) with own | foreign
        · subst act
          exact Stage.left_of_stopping? (patient b _ allowed call hc own)
        · exact idle.calls call (List.mem_of_getElem? hc) foreign
      exact ⟨idle.perform change standing hp sole,
        lost.perform hp change (patient b a allowed) idle (fitted_of_reaches hr) (standing i) sole⟩

end Cluster

end ReliableQueue.Queue
