import ReliableQueue.Queue.Cluster

/-!
Runs of a cluster. An act is one atomic step of a process or something done from
outside; a run is any sequence of acts that can be performed one after the other. A
property of every cluster that is reached therefore holds for every interleaving.
-/

namespace ReliableQueue.Queue

/-- What may come next in a cluster. -/
inductive Act where
  /-- A handle is built for the queue stored under `name`. -/
  | build (name : String) (options : Options)
  /-- The owner of a handle makes a call. -/
  | invoke (handle : Nat) (request : Request)
  /-- The caller of a call gives up waiting. -/
  | abandon (call : Nat)
  /-- The owner of a handle gives it up. -/
  | drop (handle : Nat)
  | step (p : Process)
  | executorReturns (run worker : Nat) (result : CallResult)
  | newToken
  | cancel (t : Token)
  | failNext (point : Store.FaultPoint) (count : Nat)
  /-- The owner of a handle sets a sweeper going. -/
  | sweep (handle : Nat) (token : Token) (config : Sweeper.Config)
  | elapse (t : Instant)

namespace Cluster

def isOwned (c : Cluster) (i : Nat) : Bool := (c.handles[i]?).any Handle.owned

/-- The cluster after an act, if the act can be performed. -/
def perform (c : Cluster) : Act → Option Cluster
  | .build name options =>
      match Handle.build name true true options with
      | .error _ => none
      | .ok h => some (c.addHandle h)
  | .invoke i request => if c.isOwned i then some (c.invoke i request) else none
  | .abandon n => some (c.abandon n)
  | .drop i => some (c.drop i)
  | .step p => c.step p
  | .executorReturns i j result => c.executorReturns i j result
  | .newToken => some c.newToken.2
  | .cancel t => some (c.cancel t)
  | .failNext point count => some (c.failNext point count)
  | .sweep i t config =>
      if c.isOwned i then
        match c.addSweeper i t config with
        | .error _ => none
        | .ok d => some d
      else none
  | .elapse t => some (c.elapse t)

/-- The cluster after a sequence of acts, if each can be performed in its turn. -/
def run (c : Cluster) : List Act → Option Cluster
  | [] => some c
  | a :: rest => (c.perform a).bind (run · rest)

/-- The cluster after a sequence of acts, if each is allowed and can be performed in its turn. -/
def runIf (ok : Cluster → Act → Prop) [∀ c a, Decidable (ok c a)] (c : Cluster) :
    List Act → Option Cluster
  | [] => some c
  | a :: rest => if ok c a then (c.perform a).bind (runIf ok · rest) else none

/-- Some run of acts that `ok` allows where they happen leads from `c` to a cluster. -/
inductive Reaches (ok : Cluster → Act → Prop) (c : Cluster) : Cluster → Prop where
  | refl : Reaches ok c c
  | perform {d e : Cluster} {a : Act} :
      Reaches ok c d → ok d a → d.perform a = some e → Reaches ok c e

namespace Reaches

variable {ok : Cluster → Act → Prop} {c d e : Cluster}

theorem head {a : Act} (hok : ok c a) (h : c.perform a = some d) (hr : Reaches ok d e) :
    Reaches ok c e := by
  induction hr with
  | refl => exact .perform .refl hok h
  | perform _ hok' h' ih => exact .perform ih hok' h'

theorem mono {ok' : Cluster → Act → Prop} (hok : ∀ c a, ok c a → ok' c a)
    (h : Reaches ok c d) : Reaches ok' c d := by
  induction h with
  | refl => exact .refl
  | perform _ ha hp ih => exact .perform ih (hok _ _ ha) hp

/-- What holds at the start and is kept by every act that is allowed holds of every run. -/
theorem invariant {I : Cluster → Prop} (h0 : I c)
    (step : ∀ d a e, I d → ok d a → d.perform a = some e → I e) (h : Reaches ok c d) : I d := by
  induction h with
  | refl => exact h0
  | perform _ hok hp ih => exact step _ _ _ ih hok hp

theorem of_run {acts : List Act} (hok : ∀ a ∈ acts, ∀ c, ok c a) (h : c.run acts = some d) :
    Reaches ok c d := by
  induction acts generalizing c with
  | nil =>
      simp only [run, Option.some.injEq] at h
      exact h ▸ .refl
  | cons a rest ih =>
      simp only [run, Option.bind_eq_some_iff] at h
      obtain ⟨b, hb, hr⟩ := h
      exact head (hok a (by simp) c) hb (ih (fun x hx => hok x (by simp [hx])) hr)

theorem of_runIf [∀ c a, Decidable (ok c a)] {acts : List Act} (h : c.runIf ok acts = some d) :
    Reaches ok c d := by
  induction acts generalizing c with
  | nil =>
      simp only [runIf, Option.some.injEq] at h
      exact h ▸ .refl
  | cons a rest ih =>
      simp only [runIf] at h
      split at h
      · next allowed =>
          obtain ⟨b, hb, hr⟩ := Option.bind_eq_some_iff.mp h
          exact head allowed hb (ih hr)
      · cases h

end Reaches

/-- All handles are for the queue stored under `name`. -/
def OnQueue (name : String) : Cluster → Act → Prop
  | _, .build n _ => n = name
  | _, _ => True

/-- A task is pushed, the queue is started, and a worker begins a call for the task. -/
def oneDelivery : List Act :=
  [.build "q" {}, .newToken, .invoke 0 (.push [{ id := "x" }]), .step (.call 0),
    .invoke 0 (.start ⟨[0]⟩), .step (.call 1)] ++
    List.replicate 8 (.step (.fetcher 0)) ++ List.replicate 4 (.step (.worker 0 0))

def oneDelivered : Cluster := ((empty 0).run oneDelivery).get (by decide +kernel)

theorem run_oneDelivery : (empty 0).run oneDelivery = some oneDelivered :=
  (Option.some_get _).symm

end Cluster

end ReliableQueue.Queue
