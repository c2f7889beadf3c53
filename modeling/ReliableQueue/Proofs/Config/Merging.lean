import ReliableQueue.Config.Layers
import ReliableQueue.Table

/-!
What merging makes of a value, key by key. Whatever is set at a path changes one key of the root,
and what it makes of that key depends on nothing but what was there.
-/

namespace ReliableQueue.Config

open Text (lower)

namespace Value

variable {root v : Value} {key x : String} {path : List PathStep}

/-! ### Tables -/

def isTable : Value → Bool
  | table .. => true
  | _ => false

theorem eq_table (h : v.isTable = true) : ∃ o es, v = .table o es := by
  cases v with
  | table o es => exact ⟨o, es, rfl⟩
  | scalar | list => cases h

def isScalar : Value → Bool
  | scalar .. => true
  | _ => false

theorem bind_put_eq (key : String) (v : Value) (es : List (String × Value)) :
    bind.put key v es = Table.put key v es := by
  induction es with
  | nil => rfl
  | cons e rest ih => rw [bind.put, ih, Table.put]

@[simp] theorem get?_bind (root : Value) (key x : String) (v : Value) :
    (root.bind key v).get? x = if x = key then some v else root.get? x := by
  have lookup (es : List (String × Value)) :
      (bind.put key v es).lookup x = if x = key then some v else es.lookup x := by
    rw [bind_put_eq, Table.lookup_put]
  cases root with
  | table o es => exact lookup es
  | scalar | list => exact lookup []

theorem isTable_bind (root : Value) (key : String) (v : Value) :
    (root.bind key v).isTable = true := by
  cases root <;> rfl

/-- What a key holds; a key that is missing counts as an empty table. -/
def branch (root : Value) (key : String) : Value := (root.get? key).getD emptyTable

/-- A value over another: a table merges into it, and anything else takes its place. -/
def onto (v old : Value) : Value :=
  match v with
  | table _ es => old.mergeAll es
  | v => v

theorem get?_set (root : Value) (key x : String) (v : Value) :
    (root.set key v).get? x = if x = lower key then some (v.onto (root.branch x)) else root.get? x := by
  cases v with
  | scalar o s => exact get?_bind root (lower key) x (.scalar o s)
  | list o vs => exact get?_bind root (lower key) x (.list o vs)
  | table o es =>
      -- Whatever is no table has no keys, as the empty table that takes its place.
      have through (b : Value) (same : b.get? = root.get?)
          (eq : root.set key (.table o es) =
            b.bind (lower key) ((b.branch (lower key)).mergeAll es)) :
          (root.set key (.table o es)).get? x =
            if x = lower key then some ((table o es).onto (root.branch x)) else root.get? x := by
        rw [eq, get?_bind, branch, same]
        split
        · next at_key => rw [at_key, onto, branch]
        · rfl
      cases root with
      | table => exact through _ rfl rfl
      | scalar | list => exact through emptyTable rfl rfl

theorem isTable_set (root : Value) (key : String) (v : Value) :
    (root.set key v).isTable = true := by
  cases v <;> exact isTable_bind _ _ _

/-- What becomes of a value that may be there when others come over it, one after the other. -/
def stack (old : Option Value) (vs : List Value) : Option Value :=
  vs.foldl (fun old v => some (v.onto (old.getD emptyTable))) old

/-- The values that entries give a key, in their order. -/
def named (key : String) (es : List (String × Value)) : List Value :=
  (es.filter fun e => lower e.1 = key).map Prod.snd

theorem get?_mergeAll (root : Value) (es : List (String × Value)) (x : String) :
    (root.mergeAll es).get? x = stack (root.get? x) (named x es) := by
  induction es generalizing root with
  | nil => rfl
  | cons e rest ih =>
      rw [mergeAll, mergeEntry, ih, get?_set]
      rcases Decidable.em (x = lower e.1) with rfl | apart
      · simp [named, stack, branch]
      · simp [named, apart, Ne.symm apart]

theorem isTable_mergeAll (es : List (String × Value)) (h : root.isTable = true ∨ es ≠ []) :
    (root.mergeAll es).isTable = true := by
  induction es generalizing root with
  | nil => exact h.resolve_right fun some => some rfl
  | cons e rest ih =>
      rw [mergeAll, mergeEntry]
      exact ih (.inl (isTable_set root e.1 e.2))

/-! ### Paths -/

/-- What a path makes of a value, with `v` at its end. -/
def along (path : List PathStep) (v old : Value) : Value :=
  match path with
  | [] => v.onto old
  | path => old.setPath path v

/-- A path leads on from nothing as from an empty table. -/
theorem setPath_null (step : PathStep) (path : List PathStep) (v : Value) :
    (scalar none .null).setPath (step :: path) v = emptyTable.setPath (step :: path) v := by
  cases step with
  | index i => cases path <;> rfl
  | key name =>
      cases path with
      | cons => rfl
      | nil => cases v <;> rfl

theorem get?_setPath (root : Value) (key x : String) (path : List PathStep) (v : Value) :
    (root.setPath (.key key :: path) v).get? x =
      if x = lower key then some (along path v (root.branch x)) else root.get? x := by
  cases path with
  | nil => rw [setPath, get?_set, along]
  | cons step rest =>
      have from_nothing : ((root.get? (lower key)).getD (.scalar none .null)).setPath
          (step :: rest) v = (root.branch (lower key)).setPath (step :: rest) v := by
        rw [branch]
        cases root.get? (lower key) with
        | none => exact setPath_null step rest v
        | some w => rfl
      rw [setPath, get?_bind, from_nothing]
      · split
        · next at_key =>
            rw [at_key, along]
            simp
        · rfl
      · simp

theorem branch_setPath (root : Value) (key x : String) (path : List PathStep) (v : Value) :
    (root.setPath (.key key :: path) v).branch x =
      if x = lower key then along path v (root.branch x) else root.branch x := by
  rw [branch, get?_setPath]
  split <;> rfl

theorem isTable_setPath (root : Value) (key : String) (path : List PathStep) (v : Value) :
    (root.setPath (.key key :: path) v).isTable = true := by
  cases path with
  | nil => exact isTable_set root key v
  | cons step rest =>
      rw [setPath]
      · exact isTable_bind _ _ _
      · simp

/-- A value that says nothing: merged into a value, it leaves that as it is. -/
def isBlank : Value → Bool
  | table _ [] => true
  | _ => false

theorem get?_of_blank (blank : v.isBlank = true) (x : String) : v.get? x = none := by
  cases v with
  | table o es =>
      cases es with
      | nil => rfl
      | cons => cases blank
  | scalar | list => cases blank

theorem isScalar_of_isTable (h : v.isTable = true) : v.isScalar = false := by
  cases v with
  | table => rfl
  | scalar | list => cases h

/-- A path that leads on puts a table or a list there, and one that says something. -/
theorem compound_setPath (root : Value) (step : PathStep) (path : List PathStep) (v : Value) :
    (root.setPath (step :: path) v).isScalar = false ∧
      (root.setPath (step :: path) v).isBlank = false := by
  cases step with
  | index i => cases root <;> cases path <;> exact ⟨rfl, rfl⟩
  | key name =>
      constructor
      · exact isScalar_of_isTable (isTable_setPath root name path v)
      · refine Bool.eq_false_iff.mpr fun blank => ?_
        have none := get?_of_blank blank (lower name)
        rw [get?_setPath, if_pos rfl] at none
        cases none

end Value

/-! ### Sources -/

namespace PathStep

/-- The path to a key of a source; a key that is no path stands for itself. -/
def ofKey (name : String) : List PathStep := (read? name).getD [.key name]

/-- It starts at a key of the root. -/
theorem ofKey_cases (name : String) : ∃ key path, ofKey name = .key key :: path := by
  rw [ofKey]
  cases path : read? name with
  | none => exact ⟨name, [], rfl⟩
  | some steps =>
      obtain ⟨⟨step, rest⟩, first, path⟩ := Option.bind_eq_some_iff.mp path
      obtain ⟨more, -, path⟩ := Option.bind_eq_some_iff.mp path
      cases path
      unfold readKey? at first
      dsimp only at first
      split at first
      · cases first
      · cases first
        exact ⟨_, more, rfl⟩

end PathStep

namespace Value

theorem setSource_eq (root : Value) (e : String × Value) :
    root.setSource e = root.setPath (PathStep.ofKey e.1) e.2 := by
  rw [setSource, PathStep.ofKey]
  cases PathStep.read? e.1 <;> rfl

theorem overlay_append (root : Value) (l l' : List (String × Value)) :
    root.overlay (l ++ l') = (root.overlay l).overlay l' :=
  List.foldl_append

end Value

end ReliableQueue.Config
