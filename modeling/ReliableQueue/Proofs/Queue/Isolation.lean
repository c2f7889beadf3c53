import ReliableQueue.Proofs.Queue.Tokens

/-!
Isolation of executor calls. The tokens of a cluster form a forest: below those of the callers
stand the tokens of the runs, and below these the contexts of the executor calls. What cancels a
token cancels what is below it and nothing beside it, so a call is cancelled with its run or by
its own executor and not otherwise.
-/

namespace ReliableQueue.Queue

variable {i j k l : Nat} {a : Act} {c d : Cluster} {u v : Token} {t : Moment} {ts : List Moment}
  {r : Run} {call : Execution} {parent : Token} {x y : Holder} {epoch : Nat} {m : Store.Memory}

/-! ### What callers do with tokens -/

/-- A token was made for a holder in one of the moments `ts`. -/
def Made (ts : List Moment) (u : Token) (x : Holder) : Prop := ∃ t ∈ ts, t.Makes u x

/-- A token and all that it descends from were made for callers. -/
def OfCallers (ts : List Moment) (u : Token) : Prop := ∀ n ∈ u.lineage, Made ts ⟨[n]⟩ .caller

/-- A caller can cancel a token that was made for it, and the context of an executor call. -/
def Known (ts : List Moment) (u : Token) : Prop :=
  (∀ n ∈ u.lineage.head?, Made ts ⟨[n]⟩ .caller) ∨ ∃ i j, Made ts u (.call i j)

/-- Queues are started under tokens of callers, and only tokens that are known are cancelled. -/
structure Moment.Lawful (past : List Moment) (t : Moment) : Prop where
  starts : ∀ n parent, t.act = .invoke n (.start parent) → OfCallers past parent
  cancels : ∀ u, t.act = .cancel u → Known past u

/-- Each moment is lawful after those before it. -/
def Lawful : List Moment → Prop
  | [] => True
  | t :: past => t.Lawful past ∧ Lawful past

theorem Lawful.split {later past : List Moment} (lawful : Lawful (later ++ t :: past)) :
    t.Lawful past ∧ Lawful past := by
  induction later with
  | nil => exact lawful
  | cons u later ih => exact ih lawful.2

theorem made_cons : Made (t :: ts) u x ↔ t.Makes u x ∨ Made ts u x := by
  simp [Made]

theorem Made.cons (made : Made ts u x) (t : Moment) : Made (t :: ts) u x :=
  made_cons.mpr (.inr made)

theorem OfCallers.cons (known : OfCallers ts u) (t : Moment) : OfCallers (t :: ts) u :=
  fun n hn => (known n hn).cons t

/-- The number of the token that a moment makes for a caller. -/
def Moment.given? (t : Moment) : Option Nat :=
  match t.act with
  | .newToken => some t.before.tokens.next
  | _ => none

/-- The context that a moment makes for a call. -/
def Moment.context? (t : Moment) : Option Token :=
  match t.act with
  | .step (.worker i j) =>
      match t.before.worker? i j, t.after.worker? i j with
      | some (.beginning _), some (.executing call) => some call.token
      | _, _ => none
  | _ => none

theorem Moment.makes_caller_iff :
    t.Makes u .caller ↔ t.act = .newToken ∧ u = ⟨[t.before.tokens.next]⟩ := by
  constructor
  · intro makes
    cases makes with
    | caller act => exact ⟨act, rfl⟩
  · rintro ⟨act, rfl⟩
    exact .caller act

theorem Moment.given?_iff {n : Nat} : t.given? = some n ↔ t.Makes ⟨[n]⟩ .caller := by
  rw [makes_caller_iff, given?]
  split
  · next act => simp [act, eq_comm]
  · next other => simpa using fun act => absurd act other

theorem Moment.context?_iff : t.context? = some u ↔ ∃ i j, t.Makes u (.call i j) := by
  constructor
  · intro context
    unfold context? at context
    split at context
    · next i j act =>
        split at context
        · next claim call ready under =>
            obtain rfl := Option.some.inj context
            exact ⟨i, j, .call ⟨act, ⟨claim, ready⟩, under⟩⟩
        · cases context
    · cases context
  · rintro ⟨i, j, makes⟩
    cases makes with
    | call begins =>
        obtain ⟨act, ⟨claim, ready⟩, under⟩ := begins
        simp [context?, act, ready, under]

instance (n : Nat) : Decidable (Made ts ⟨[n]⟩ .caller) :=
  decidable_of_iff (∃ t ∈ ts, t.given? = some n) (by simp only [Made, Moment.given?_iff])

instance : Decidable (OfCallers ts u) :=
  inferInstanceAs (Decidable (∀ n ∈ u.lineage, Made ts ⟨[n]⟩ .caller))

instance : Decidable (∃ i j, Made ts u (.call i j)) :=
  decidable_of_iff (∃ t ∈ ts, t.context? = some u) (by
    simp only [Made, Moment.context?_iff]
    grind)

instance : Decidable (Known ts u) :=
  inferInstanceAs (Decidable ((∀ n ∈ u.lineage.head?, _) ∨ ∃ i j, Made ts u (.call i j)))

/-- Whether a moment is lawful after those before it. -/
def Moment.isLawful (past : List Moment) (t : Moment) : Bool :=
  match t.act with
  | .invoke _ (.start parent) => decide (OfCallers past parent)
  | .cancel u => decide (Known past u)
  | _ => true

theorem Moment.isLawful_iff : t.isLawful ts = true ↔ t.Lawful ts := by
  unfold isLawful
  constructor
  · intro allowed
    constructor
    · intro n parent act
      simpa [act] using allowed
    · intro u act
      simpa [act] using allowed
  · rintro ⟨starts, cancels⟩
    split
    · next n parent act => exact decide_eq_true (starts n parent act)
    · next u act => exact decide_eq_true (cancels u act)
    · rfl

instance : Decidable (t.Lawful ts) := decidable_of_iff _ Moment.isLawful_iff

instance decidableLawful : (ts : List Moment) → Decidable (Lawful ts)
  | [] => inferInstanceAs (Decidable True)
  | t :: past =>
      have := decidableLawful past
      inferInstanceAs (Decidable (t.Lawful past ∧ Lawful past))

/-! ### Causes -/

/-- A moment cancels the token `u`, which was made for a holder. -/
inductive Moment.Revokes (t : Moment) : Token → Holder → Prop where
  | caller {u v : Token} (act : t.act = .cancel v) (own : v.lineage.head? = u.lineage.head?) :
      Revokes t u .caller
  | run {u : Token} {i : Nat} (cause : t.StopsRun i ∨ t.DropsRun i) : Revokes t u (.run i)
  | context {u : Token} {i j : Nat} (act : t.act = .cancel u) : Revokes t u (.call i j)
  | ended {u : Token} {i j : Nat} {call : Execution} (ends : t.EndsCall i j call)
      (token : call.token = u) : Revokes t u (.call i j)

/-- Why run `i`, which was started under `parent`, is cancelled. -/
inductive RunCancelled (ts : List Moment) (i : Nat) (parent : Token) : Prop where
  | stopped (t : Moment) (mem : t ∈ ts) (stops : t.StopsRun i)
  | parent (t : Moment) (v : Token) (mem : t ∈ ts) (act : t.act = .cancel v)
      (within : parent.Within v)
  | dropped (t : Moment) (mem : t ∈ ts) (drops : t.DropsRun i)

/-- A moment cancels no token of the calls in `calls`, of the runs in `runs` or of callers. -/
structure Moment.Spares (past : List Moment) (calls : Nat → Nat → Execution → Prop)
    (runs : Nat → Prop) (t : Moment) : Prop where
  calls : ∀ i j call, t.before.worker? i j = some (.executing call) → calls i j call →
    t.after.tokens.isCancelled call.token = t.before.tokens.isCancelled call.token
  runs : ∀ i r, t.before.runs[i]? = some r → runs i →
    t.after.tokens.isCancelled r.token = t.before.tokens.isCancelled r.token
  callers : ∀ u, OfCallers past u →
    t.after.tokens.isCancelled u = t.before.tokens.isCancelled u

/-- Nothing is cancelled but with what it belongs to: a call with its run or by its executor, a run
with its parent, by a stop of its queue or with its handle, and a token of callers by them. -/
structure Isolated (ts : List Moment) (c : Cluster) : Prop where
  call : ∀ i j call, c.worker? i j = some (.executing call) →
    ∃ parent, (∃ t ∈ ts, ∃ r, t.Launches i parent r) ∧
      (c.tokens.isCancelled call.token = true ↔
        RunCancelled ts i parent ∨ ∃ t ∈ ts, t.act = .cancel call.token)
  run : ∀ i r, c.runs[i]? = some r →
    ∃ parent, (∃ t ∈ ts, ∃ r, t.Launches i parent r) ∧
      (c.tokens.isCancelled r.token = true ↔ RunCancelled ts i parent)
  callers : ∀ u, OfCallers ts u →
    (c.tokens.isCancelled u = true ↔ ∃ t ∈ ts, ∃ v, t.act = .cancel v ∧ u.Within v)
  /-- The end of a call, in whatever way, cancels nothing else. -/
  ends : ∀ later t past k l call, ts = later ++ t :: past → t.EndsCall k l call →
    t.Spares past (fun i j _ => ¬(i = k ∧ j = l)) fun _ => True
  /-- Nor does an executor that cancels its own context. -/
  cancels : ∀ later t past k l u, ts = later ++ t :: past → t.act = .cancel u →
    Made past u (.call k l) → t.Spares past (fun _ _ call => call.token ≠ u) fun _ => True
  /-- A stop cancels no other run, be it under the same parent, and none of its calls. -/
  stops : ∀ later t past k, ts = later ++ t :: past → t.StopsRun k →
    t.Spares past (fun i _ _ => i ≠ k) (· ≠ k)

namespace Cluster

/-! ### Numbers -/

/-- Every token that was made bears a number of its own, and the next number is free. -/
structure Numbered (ts : List Moment) (c : Cluster) : Prop where
  below : ∀ u x, Made ts u x → ∃ n, u.lineage.head? = some n ∧ n < c.tokens.next
  unique : ∀ u v x y, Made ts u x → Made ts v y → u.lineage.head? = v.lineage.head? →
    u = v ∧ x = y

theorem TokenChange.next_le (change : TokenChange a c d) : c.tokens.next ≤ d.tokens.next := by
  cases change with
  | kept next cancelled => exact next
  | cancelled u act tokens | ended i j call ends tokens | stopped i r run cause tokens =>
      exact Nat.le_of_eq (by rw [tokens, Cancellation.next_cancel])

theorem Numbered.perform (numbered : Numbered ts c) (h : c.perform a = some d)
    (change : TokenChange a c d) : Numbered (⟨c, a, d⟩ :: ts) d := by
  -- The number of a new token is too high for an old one.
  have apart {u v : Token} {x y : Holder} (new : Moment.Makes ⟨c, a, d⟩ u x)
      (old : Made ts v y) (same : u.lineage.head? = v.lineage.head?) : False := by
    obtain ⟨n, own, low⟩ := numbered.below v y old
    rw [(next_of_makes h new).1, own] at same
    exact absurd (Option.some.inj same) (Nat.ne_of_gt low)
  constructor
  · intro u x made
    rcases made_cons.mp made with new | old
    · obtain ⟨own, next⟩ := next_of_makes h new
      exact ⟨_, own, by omega⟩
    · obtain ⟨n, own, low⟩ := numbered.below u x old
      exact ⟨n, own, Nat.lt_of_lt_of_le low change.next_le⟩
  · intro u v x y hu hv same
    rcases made_cons.mp hu with new | old <;> rcases made_cons.mp hv with new' | old'
    · exact new.unique new'
    · exact (apart new old' same).elim
    · exact (apart new' old same.symm).elim
    · exact numbered.unique u v x y old old' same

/-! ### The forest -/

/-- Runs stand below tokens of callers, and calls below their runs. -/
structure Forest (ts : List Moment) (c : Cluster) : Prop where
  asked : c.Asks fun _ request => ∀ parent, request = .start parent → OfCallers ts parent
  runs : ∀ i r, c.runs[i]? = some r → Made ts r.token (.run i) ∧
    ∃ n parent, r.token.lineage = n :: parent.lineage ∧ OfCallers ts parent ∧
      ∃ t ∈ ts, ∃ q, t.Launches i parent q
  calls : ∀ i j call, c.worker? i j = some (.executing call) → Made ts call.token (.call i j) ∧
    ∃ n r, c.runs[i]? = some r ∧ call.token.lineage = n :: r.token.lineage

theorem Forest.perform (forest : Forest ts c) (h : c.perform a = some d)
    (lawful : Moment.Lawful ts ⟨c, a, d⟩) : Forest (⟨c, a, d⟩ :: ts) d := by
  refine ⟨?_, fun i r run => ?_, fun i j call under => ?_⟩
  · refine Asks.perform (fun call hc request under parent asked => ?_) h
      fun n request act parent asked => ?_
    · exact (forest.asked call hc request under parent asked).cons _
    · subst asked
      exact (lawful.starts n parent act).cons _
  · rcases run_or_launches h run with ⟨q, hq, same⟩ | ⟨parent, launches⟩
    · obtain ⟨made, n, parent, lineage, known, t, ht, q', launches⟩ := forest.runs i q hq
      rw [same]
      exact ⟨made.cons _, n, parent, lineage, known.cons _, t, List.mem_cons_of_mem _ ht, q',
        launches⟩
    · obtain ⟨n, x, act, asked⟩ := launches.asked
      have known := forest.asked _ (List.mem_of_getElem? asked) _ rfl parent rfl
      refine ⟨made_cons.mpr (.inl (.run launches)), c.tokens.next, parent, ?_, known.cons _, _,
        List.mem_cons_self, r, launches⟩
      rw [(token_of_launches h launches).1]
      rfl
  · rcases call_or_begins h under with ⟨old, -⟩ | begins
    · obtain ⟨made, n, r, run, lineage⟩ := forest.calls i j call old
      obtain ⟨r', run', on⟩ := goesOn_of_perform h i r run
      exact ⟨made.cons _, n, r', run', by rw [lineage, on.token]⟩
    · obtain ⟨r, run, token, -⟩ := token_of_begins h begins
      obtain ⟨r', run', on⟩ := goesOn_of_perform h i r run
      refine ⟨made_cons.mpr (.inl (.call begins)), c.tokens.next, r', run', ?_⟩
      rw [token, on.token]
      rfl

/-- No call under way has the context of a call that has ended. -/
def Unended (ts : List Moment) (c : Cluster) : Prop :=
  ∀ t ∈ ts, ∀ i j call, t.EndsCall i j call → Made ts call.token (.call i j) ∧
    ∀ k l other, c.worker? k l = some (.executing other) → other.token ≠ call.token

theorem Unended.perform (unended : Unended ts c) (numbered : Numbered ts c) (forest : Forest ts c)
    (h : c.perform a = some d) : Unended (⟨c, a, d⟩ :: ts) d := by
  -- A call that begins has a number that no call before it had.
  have fresh {k l : Nat} {call other : Execution} {i j : Nat}
      (made : Made ts call.token (.call i j)) (begins : Moment.BeginsCall k l other ⟨c, a, d⟩) :
      other.token ≠ call.token := by
    intro same
    obtain ⟨n, own, low⟩ := numbered.below _ _ made
    rw [← same, (next_of_makes h (.call begins)).1] at own
    exact absurd (Option.some.inj own) (Nat.ne_of_gt low)
  intro t ht i j call ends
  rcases List.mem_cons.mp ht with rfl | ht
  · have made := (forest.calls i j call ends.under).1
    refine ⟨made.cons _, fun k l other under same => ?_⟩
    rcases call_or_begins h under with ⟨old, foreign⟩ | begins
    · obtain ⟨-, at_place⟩ := numbered.unique _ _ _ _ (forest.calls k l other old).1 made
        (by rw [same])
      cases at_place
      rw [ends.own] at foreign
      cases foreign
    · exact fresh made begins same
  · obtain ⟨made, others⟩ := unended t ht i j call ends
    refine ⟨made.cons _, fun k l other under => ?_⟩
    rcases call_or_begins h under with ⟨old, -⟩ | begins
    · exact others k l other old
    · exact fresh made begins

/-! ### What was cancelled, and why -/

/-- A token is cancelled exactly in the moments that have a cause to cancel it. -/
structure Accounted (ts : List Moment) (c : Cluster) : Prop where
  causes : ∀ n ∈ c.tokens.cancelled, ∃ t ∈ ts, ∃ u x, Made ts u x ∧
    u.lineage.head? = some n ∧ t.Revokes u x
  callers : ∀ t ∈ ts, ∀ v n, t.act = .cancel v → v.lineage.head? = some n →
    n ∈ c.tokens.cancelled
  runs : ∀ t ∈ ts, ∀ i, t.StopsRun i ∨ t.DropsRun i → c.Cancelled i

/-- An act cancels nothing, or one token that was made. -/
theorem TokenChange.revokes (change : TokenChange a c d) (forest : Forest ts c)
    (lawful : Moment.Lawful ts ⟨c, a, d⟩) :
    d.tokens.cancelled = c.tokens.cancelled ∨
      ∃ u x, Made ts u x ∧ Moment.Revokes ⟨c, a, d⟩ u x ∧ ∀ n, n ∈ d.tokens.cancelled ↔
        u.lineage.head? = some n ∨ n ∈ c.tokens.cancelled := by
  cases change with
  | kept next cancelled => exact .inl cancelled
  | ended i j call ends tokens =>
      refine .inr ⟨call.token, .call i j, (forest.calls i j call ends.under).1, .ended ends rfl, ?_⟩
      rw [tokens]
      exact fun n => Cancellation.mem_cancel_iff
  | stopped i r run cause tokens =>
      refine .inr ⟨r.token, .run i, (forest.runs i r run).1, .run cause, ?_⟩
      rw [tokens]
      exact fun n => Cancellation.mem_cancel_iff
  | cancelled v act tokens =>
      rw [tokens]
      rcases lawful.cancels v act with own | ⟨i, j, made⟩
      · cases head : v.lineage.head? with
        | none =>
            left
            rw [Cancellation.cancel, List.head?_eq_none_iff.mp head]
        | some n =>
            refine .inr ⟨⟨[n]⟩, .caller, own n head, .caller act head, fun n' => ?_⟩
            rw [Cancellation.mem_cancel_iff, head]
            rfl
      · exact .inr ⟨v, .call i j, made, .context act, fun n => Cancellation.mem_cancel_iff⟩

/-- A stop and the end of a handle cancel the run that they take. -/
theorem cancelled_of_cause (rooted : c.Rooted) (h : c.perform a = some d)
    (cause : Moment.StopsRun i ⟨c, a, d⟩ ∨ Moment.DropsRun i ⟨c, a, d⟩) : d.Cancelled i := by
  rcases cause with ⟨s, r, takes⟩ | ⟨r, hd, run, handle, runtime, act⟩
  · obtain ⟨runs, tokens⟩ := tokens_of_takes h takes
    refine ⟨r, runs ▸ takes.run, ?_⟩
    rw [tokens]
    exact Cancellation.isCancelled_cancel _ (rooted i r takes.run)
  · have act : a = .step (.disposal r.handle) := act
    subst act
    obtain ⟨hd', handle', -, ⟨none, -⟩ | ⟨k, q, runtime', run', rfl⟩⟩ := stepDisposal_cases h
    · obtain rfl := Option.some.inj (handle.symm.trans handle')
      rw [runtime] at none
      cases none
    · obtain rfl := Option.some.inj (handle.symm.trans handle')
      obtain rfl := Option.some.inj (runtime.symm.trans runtime')
      obtain rfl := Option.some.inj (run.symm.trans run')
      obtain ⟨r', now, on⟩ := goesOn_of_perform h i r run
      refine ⟨r', now, ?_⟩
      rw [tokens_letGo, on.token]
      exact Cancellation.isCancelled_cancel _ (rooted i r run)

theorem Accounted.perform (accounted : Accounted ts c) (forest : Forest ts c) (rooted : c.Rooted)
    (h : c.perform a = some d) (change : TokenChange a c d)
    (lawful : Moment.Lawful ts ⟨c, a, d⟩) : Accounted (⟨c, a, d⟩ :: ts) d := by
  have grows := grows_perform h
  refine ⟨fun n hn => ?_, fun t ht v n act own => ?_, fun t ht i cause => ?_⟩
  · have old (before : n ∈ c.tokens.cancelled) : ∃ t ∈ (⟨c, a, d⟩ :: ts : List Moment), ∃ u x,
        Made (⟨c, a, d⟩ :: ts) u x ∧ u.lineage.head? = some n ∧ t.Revokes u x := by
      obtain ⟨t, ht, u, x, made, own, revokes⟩ := accounted.causes n before
      exact ⟨t, List.mem_cons_of_mem _ ht, u, x, made.cons _, own, revokes⟩
    rcases change.revokes forest lawful with same | ⟨u, x, made, revokes, cancelled⟩
    · exact old (same ▸ hn)
    · rcases (cancelled n).mp hn with own | before
      · exact ⟨_, List.mem_cons_self, u, x, made.cons _, own, revokes⟩
      · exact old before
  · rcases List.mem_cons.mp ht with rfl | ht
    · have act : a = .cancel v := act
      subst act
      cases h
      exact Cancellation.mem_cancel_iff.mpr (.inl own)
    · exact Cancellation.mem_of_grows grows (accounted.callers t ht v n act own)
  · rcases List.mem_cons.mp ht with rfl | ht
    · exact cancelled_of_cause rooted h cause
    · obtain ⟨r, run, cancelled⟩ := accounted.runs t ht i cause
      obtain ⟨r', run', on⟩ := goesOn_of_perform h i r run
      exact ⟨r', run', on.token ▸ grows _ cancelled⟩

/-! ### Runs from a store -/

/-- What is known of the tokens of a cluster after the moments `ts`. -/
structure Grown (ts : List Moment) (c : Cluster) : Prop where
  numbered : Numbered ts c
  forest : Forest ts c
  unended : Unended ts c
  accounted : Accounted ts c

theorem grown_onStore (epoch : Nat) (m : Store.Memory) : Grown [] (onStore epoch m) where
  numbered := ⟨by simp [Made], by simp [Made]⟩
  forest := ⟨by simp [Asks, onStore], by simp [onStore], by simp [worker?, onStore]⟩
  unended := by simp [Unended]
  accounted := ⟨by simp [onStore], by simp, by simp⟩

theorem grown_of_moments (h : Moments (onStore epoch m) ts c) (lawful : Lawful ts) :
    Grown ts c := by
  induction h with
  | refl => exact grown_onStore epoch m
  | perform h hp ih =>
      obtain ⟨numbered, forest, unended, accounted⟩ := ih lawful.2
      have change := tokens_of_perform (anyhow_of_reaches h.reaches) hp
      exact ⟨numbered.perform hp change, forest.perform hp lawful.1,
        unended.perform numbered forest hp,
        accounted.perform forest (rooted_of_reaches h.reaches) hp change lawful.1⟩

namespace Grown

variable {n : Nat}

/-- What was made for a holder was cancelled for the holder. -/
theorem revoked (grown : Grown ts c) (made : Made ts u x) (own : u.lineage.head? = some n)
    (cancelled : n ∈ c.tokens.cancelled) : ∃ t ∈ ts, t.Revokes u x := by
  obtain ⟨t, ht, v, y, made', own', revokes⟩ := grown.accounted.causes n cancelled
  obtain ⟨rfl, rfl⟩ := grown.numbered.unique u v x y made made' (own.trans own'.symm)
  exact ⟨t, ht, revokes⟩

theorem callers_iff (grown : Grown ts c) (known : OfCallers ts u) :
    c.tokens.isCancelled u = true ↔ ∃ t ∈ ts, ∃ v, t.act = .cancel v ∧ u.Within v := by
  rw [Cancellation.isCancelled_iff]
  constructor
  · rintro ⟨n, within, cancelled⟩
    obtain ⟨t, ht, revokes⟩ := grown.revoked (known n within) rfl cancelled
    cases revokes with
    | caller act own => exact ⟨t, ht, _, act, n, own, within⟩
  · rintro ⟨t, ht, v, act, n, own, within⟩
    exact ⟨n, within, grown.accounted.callers t ht v n act own⟩

theorem run_iff (grown : Grown ts c) (run : c.runs[i]? = some r) :
    ∃ parent, (∃ t ∈ ts, ∃ q, t.Launches i parent q) ∧
      (c.tokens.isCancelled r.token = true ↔ RunCancelled ts i parent) := by
  obtain ⟨made, n, parent, lineage, known, launched⟩ := grown.forest.runs i r run
  refine ⟨parent, launched, fun cancelled => ?_, fun cause => ?_⟩
  · obtain ⟨n', within, cancelled⟩ := Cancellation.isCancelled_iff.mp cancelled
    rw [lineage] at within
    rcases List.mem_cons.mp within with rfl | above
    · obtain ⟨t, ht, revokes⟩ := grown.revoked made (by rw [lineage]; rfl) cancelled
      cases revokes with
      | run cause => exact cause.elim (.stopped t ht) (.dropped t ht)
    · obtain ⟨t, ht, v, act, within⟩ :=
        (grown.callers_iff known).mp (Cancellation.isCancelled_iff.mpr ⟨n', above, cancelled⟩)
      exact .parent t v ht act within
  · have ended {t : Moment} (ht : t ∈ ts) (cause : t.StopsRun i ∨ t.DropsRun i) :
        c.tokens.isCancelled r.token = true := by
      obtain ⟨r', run', cancelled⟩ := grown.accounted.runs t ht i cause
      obtain rfl := Option.some.inj (run.symm.trans run')
      exact cancelled
    cases cause with
    | stopped t ht stops => exact ended ht (.inl stops)
    | dropped t ht drops => exact ended ht (.inr drops)
    | parent t v ht act within =>
        obtain ⟨n', above, cancelled⟩ := Cancellation.isCancelled_iff.mp
          ((grown.callers_iff known).mpr ⟨t, ht, v, act, within⟩)
        refine Cancellation.isCancelled_iff.mpr ⟨n', ?_, cancelled⟩
        rw [lineage]
        exact List.mem_cons_of_mem n above

theorem call_iff (grown : Grown ts c) (under : c.worker? i j = some (.executing call)) :
    ∃ parent, (∃ t ∈ ts, ∃ q, t.Launches i parent q) ∧
      (c.tokens.isCancelled call.token = true ↔
        RunCancelled ts i parent ∨ ∃ t ∈ ts, t.act = .cancel call.token) := by
  obtain ⟨made, n, r, run, lineage⟩ := grown.forest.calls i j call under
  obtain ⟨parent, launched, of_run⟩ := grown.run_iff run
  refine ⟨parent, launched, fun cancelled => ?_, fun cause => ?_⟩
  · obtain ⟨n', within, cancelled⟩ := Cancellation.isCancelled_iff.mp cancelled
    rw [lineage] at within
    rcases List.mem_cons.mp within with rfl | above
    · obtain ⟨t, ht, revokes⟩ := grown.revoked made (by rw [lineage]; rfl) cancelled
      cases revokes with
      | context act => exact .inr ⟨t, ht, act⟩
      | ended ends token =>
          exact ((grown.unended t ht i j _ ends).2 i j call under token.symm).elim
    · exact .inl (of_run.mp (Cancellation.isCancelled_iff.mpr ⟨n', above, cancelled⟩))
  · refine Cancellation.isCancelled_iff.mpr ?_
    rw [lineage]
    rcases cause with cause | ⟨t, ht, act⟩
    · obtain ⟨n', above, cancelled⟩ := Cancellation.isCancelled_iff.mp (of_run.mpr cause)
      exact ⟨n', List.mem_cons_of_mem n above, cancelled⟩
    · exact ⟨n, List.mem_cons_self,
        grown.accounted.callers t ht _ n act (by rw [lineage]; rfl)⟩

/-- What a moment does not revoke, it spares. -/
theorem spares {calls : Nat → Nat → Execution → Prop} {runs : Nat → Prop} (grown : Grown ts c)
    (change : TokenChange a c d) (lawful : Moment.Lawful ts ⟨c, a, d⟩)
    (below : ∀ i j call, calls i j call → runs i)
    (sound : ∀ u x, Moment.Revokes ⟨c, a, d⟩ u x → Made ts u x →
      (∃ i, x = .run i ∧ ¬runs i) ∨ ∃ i j, x = .call i j ∧
        ∀ call, call.token = u → ¬calls i j call) :
    Moment.Spares ts calls runs ⟨c, a, d⟩ := by
  rcases change.revokes grown.forest lawful with same | ⟨u, x, made, revokes, cancelled⟩
  · have all (w : Token) : d.tokens.isCancelled w = c.tokens.isCancelled w := by
      rw [Cancellation.isCancelled, same, Cancellation.isCancelled]
    exact ⟨fun _ _ call _ _ => all call.token, fun _ r _ _ => all r.token, fun w _ => all w⟩
  · -- No number of a token that is spared is the number of the one that is cancelled.
    have kept {w : Token} (apart : ∀ n ∈ w.lineage, u.lineage.head? ≠ some n) :
        d.tokens.isCancelled w = c.tokens.isCancelled w := by
      rw [Bool.eq_iff_iff, Cancellation.isCancelled_iff, Cancellation.isCancelled_iff]
      exact exists_congr fun n => and_congr_right fun within =>
        (cancelled n).trans (or_iff_right (apart n within))
    have callers (w : Token) (known : OfCallers ts w) :
        ∀ n ∈ w.lineage, u.lineage.head? ≠ some n := by
      intro n within own
      obtain ⟨rfl, rfl⟩ := grown.numbered.unique _ _ _ _ made (known n within) own
      rcases sound _ _ revokes made with ⟨i, eq, -⟩ | ⟨i, j, eq, -⟩ <;> cases eq
    have ofRuns (i : Nat) (r : Run) (run : c.runs[i]? = some r) (spared : runs i) :
        ∀ n ∈ r.token.lineage, u.lineage.head? ≠ some n := by
      obtain ⟨made', n, parent, lineage, known, -⟩ := grown.forest.runs i r run
      rw [lineage]
      refine List.forall_mem_cons.mpr ⟨fun own => ?_, callers parent known⟩
      obtain ⟨rfl, rfl⟩ := grown.numbered.unique _ _ _ _ made made' (by rw [own, lineage]; rfl)
      rcases sound _ _ revokes made with ⟨k, eq, hurt⟩ | ⟨k, l, eq, -⟩ <;> cases eq
      exact hurt spared
    refine ⟨fun i j call under spared => kept ?_,
      fun i r run spared => kept (ofRuns i r run spared), fun w known => kept (callers w known)⟩
    obtain ⟨made', n, r, run, lineage⟩ := grown.forest.calls i j call under
    rw [lineage]
    refine List.forall_mem_cons.mpr ⟨fun own => ?_, ofRuns i r run (below i j call spared)⟩
    obtain ⟨rfl, rfl⟩ := grown.numbered.unique _ _ _ _ made made' (by rw [own, lineage]; rfl)
    rcases sound _ _ revokes made with ⟨k, eq, -⟩ | ⟨k, l, eq, hurt⟩ <;> cases eq
    exact hurt call rfl spared

end Grown

/-- Only its executor or its worker ends a call. -/
theorem act_of_ends (ends : t.EndsCall k l call) {b : Act} (act : t.act = b) :
    b.isOf k l = true := act ▸ ends.own

/-- The end of a call revokes no token but its context. -/
theorem revokes_of_ends (ends : t.EndsCall k l call) (revokes : t.Revokes u x) :
    x = .call k l := by
  cases revokes with
  | caller act | context act => cases act_of_ends ends act
  | run cause =>
      rcases cause with ⟨s, r, takes⟩ | ⟨r, h, -, -, -, act⟩
      · cases act_of_ends ends takes.act
      · cases act_of_ends ends act
  | ended ends' token =>
      obtain ⟨rfl, rfl⟩ := Act.isOf_inj ends'.own ends.own
      rfl

/-- A stop revokes no token but that of the run that it takes. -/
theorem revokes_of_stops (stops : t.StopsRun k) (revokes : t.Revokes u x) : x = .run k := by
  obtain ⟨s, r, takes⟩ := stops
  cases revokes with
  | caller act | context act => cases takes.act.symm.trans act
  | ended ends token => cases act_of_ends ends takes.act
  | run cause =>
      rcases cause with ⟨s', r', takes'⟩ | ⟨r', h, -, -, -, act⟩
      · cases takes.act.symm.trans takes'.act
        obtain ⟨-, rfl⟩ : r.handle = r'.handle ∧ k = _ := by
          simpa using takes.joins.symm.trans takes'.joins
        rfl
      · cases takes.act.symm.trans act

/-- An executor that cancels its own context revokes no other token. -/
theorem revokes_of_cancel (numbered : Numbered ts c) (act : t.act = .cancel v)
    (context : Made ts v (.call k l)) (revokes : t.Revokes u x) (made : Made ts u x) :
    u = v ∧ x = .call k l := by
  cases revokes with
  | caller act' own =>
      cases act.symm.trans act'
      exact numbered.unique _ _ _ _ made context own.symm
  | context act' =>
      cases act.symm.trans act'
      exact ⟨rfl, (numbered.unique _ _ _ _ made context rfl).2⟩
  | ended ends token => cases act_of_ends ends act
  | run cause =>
      rcases cause with ⟨s', r', takes'⟩ | ⟨r', h, -, -, -, act'⟩
      · cases act.symm.trans takes'.act
      · cases act.symm.trans act'

/-- Whatever is done in a cluster with its queues, every executor call, every run and every token
of a caller is isolated from the others. -/
theorem calls_isolated (h : Moments (onStore epoch m) ts c) (lawful : Lawful ts) :
    Isolated ts c := by
  have grown := grown_of_moments h lawful
  -- Each moment meets the tokens that were made before it.
  have past {later past : List Moment} {t : Moment} (at_moment : ts = later ++ t :: past) :
      Grown past t.before ∧ TokenChange t.act t.before t.after ∧ t.Lawful past := by
    subst at_moment
    obtain ⟨before, hp⟩ := h.split
    obtain ⟨now, earlier⟩ := lawful.split
    exact ⟨grown_of_moments before earlier,
      tokens_of_perform (anyhow_of_reaches before.reaches) hp, now⟩
  refine ⟨fun i j call under => grown.call_iff under, fun i r run => grown.run_iff run,
    fun u known => grown.callers_iff known, fun later t past' k l call at_moment ends => ?_,
    fun later t past' k l u at_moment act context => ?_,
    fun later t past' k at_moment stops => ?_⟩
  · obtain ⟨grown, change, now⟩ := past at_moment
    refine grown.spares change now (fun _ _ _ _ => trivial) fun u x revokes _ => .inr ?_
    exact ⟨k, l, revokes_of_ends ends revokes, fun _ _ spared => spared ⟨rfl, rfl⟩⟩
  · obtain ⟨grown, change, now⟩ := past at_moment
    refine grown.spares change now (fun _ _ _ _ => trivial) fun w x revokes made => .inr ?_
    obtain ⟨rfl, own⟩ := revokes_of_cancel grown.numbered act context revokes made
    exact ⟨k, l, own, fun _ same spared => spared same⟩
  · obtain ⟨grown, change, now⟩ := past at_moment
    refine grown.spares change now (fun _ _ _ apart => apart) fun u x revokes _ => .inl ?_
    exact ⟨k, revokes_of_stops stops revokes, fun spared => spared rfl⟩

/-- Two queues run under one parent, and each has a call under way. -/
def twoCalls : List Act := List.flatten [
  [.build "a" {}, .build "b" {}, .newToken, .invoke 0 (.push [{ id := "x" }]), .step (.call 0),
    .invoke 1 (.push [{ id := "y" }]), .step (.call 1), .invoke 0 (.start ⟨[0]⟩), .step (.call 2),
    .invoke 1 (.start ⟨[0]⟩), .step (.call 3)],
  List.replicate 8 (.step (.fetcher 0)), List.replicate 4 (.step (.worker 0 0)),
  List.replicate 8 (.step (.fetcher 1)), List.replicate 4 (.step (.worker 1 0))]

/-- One executor cancels its own context, and the queue of the other is stopped. -/
def twoEndings : List Act :=
  twoCalls ++ [.cancel ⟨[3, 1, 0]⟩, .invoke 1 .stop, .step (.call 4)]

def twoEnded : Cluster := ((onStore 0 {}).run twoEndings).get (by decide +kernel)

theorem calls_isolated_two :
    Isolated (momentsOf (onStore 0 {}) [] twoEndings) twoEnded ∧
    [⟨[3, 1, 0]⟩, ⟨[1, 0]⟩, ⟨[4, 2, 0]⟩, ⟨[2, 0]⟩, ⟨[0]⟩].map twoEnded.tokens.isCancelled =
      [true, false, true, true, false] := by
  have moments := Moments.of_run .refl
    (show (onStore 0 {}).run twoEndings = some twoEnded from (Option.some_get _).symm)
  exact ⟨calls_isolated moments (by decide +kernel), by decide +kernel⟩

end Cluster

end ReliableQueue.Queue
