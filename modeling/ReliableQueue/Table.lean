/-!
Finite maps keyed by strings, as association lists with distinct keys. The order
of the entries carries no meaning; every reader that shows an order sorts first.
-/

namespace ReliableQueue

universe u v

/-- A finite map from strings; no key occurs twice. -/
structure Table (α : Type u) where
  entries : List (String × α)
  distinct : (entries.map Prod.fst).Nodup

namespace Table

variable {α : Type u} {β : Type v}

instance [DecidableEq α] : DecidableEq (Table α) := fun a b =>
  if h : a.entries = b.entries then
    .isTrue (by cases a; cases b; simp_all)
  else
    .isFalse (fun e => h (by rw [e]))

/-- Binds `k` to `v`, in place if `k` is bound and at the end if it is not. -/
def put (k : String) (v : α) : List (String × α) → List (String × α)
  | [] => [(k, v)]
  | e :: rest => if e.1 = k then (k, v) :: rest else e :: put k v rest

theorem mem_keys_put {k x : String} {v : α} {es : List (String × α)} :
    x ∈ (put k v es).map Prod.fst ↔ x = k ∨ x ∈ es.map Prod.fst := by
  induction es with
  | nil => simp [put]
  | cons e rest ih =>
      simp only [put]
      split
      · next h => simp [h]
      · simp only [List.map_cons, List.mem_cons, ih]
        constructor
        · rintro (h | h | h) <;> simp [h]
        · rintro (h | h | h) <;> simp [h]

theorem nodup_put {k : String} {v : α} {es : List (String × α)}
    (h : (es.map Prod.fst).Nodup) : ((put k v es).map Prod.fst).Nodup := by
  induction es with
  | nil => simp [put]
  | cons e rest ih =>
      simp only [List.map_cons, List.nodup_cons] at h
      simp only [put]
      split
      · next he => simpa [← he] using h
      · next he =>
          simp only [List.map_cons, List.nodup_cons, mem_keys_put]
          exact ⟨fun hm => hm.elim he h.1, ih h.2⟩

def empty : Table α := ⟨[], .nil⟩

instance : Inhabited (Table α) := ⟨empty⟩

instance : EmptyCollection (Table α) := ⟨empty⟩

def keys (t : Table α) : List String :=
  t.entries.map Prod.fst

def size (t : Table α) : Nat :=
  t.entries.length

def isEmpty (t : Table α) : Bool :=
  t.entries.isEmpty

def get? (t : Table α) (k : String) : Option α :=
  t.entries.lookup k

def getD (t : Table α) (k : String) (d : α) : α :=
  (t.get? k).getD d

def contains (t : Table α) (k : String) : Bool :=
  (t.get? k).isSome

def insert (t : Table α) (k : String) (v : α) : Table α :=
  ⟨put k v t.entries, nodup_put t.distinct⟩

def erase (t : Table α) (k : String) : Table α :=
  ⟨t.entries.filter (fun e => !decide (e.1 = k)),
    t.distinct.sublist (List.filter_sublist.map Prod.fst)⟩

/-- Keeps the last binding of a key that is given twice. -/
def ofList (es : List (String × α)) : Table α :=
  es.foldl (fun t e => t.insert e.1 e.2) empty

def map (f : α → β) (t : Table α) : Table β :=
  ⟨t.entries.map (fun e => (e.1, f e.2)), by
    simpa [List.map_map, Function.comp_def] using t.distinct⟩

/-- The entries in the order of their keys. -/
def sorted (t : Table α) : List (String × α) :=
  t.entries.mergeSort (fun a b => decide (a.1 ≤ b.1))

theorem lookup_put (k x : String) (v : α) (es : List (String × α)) :
    (put k v es).lookup x = if x = k then some v else es.lookup x := by
  induction es with
  | nil =>
      by_cases h : x = k
      · simp [put, h]
      · have : (x == k) = false := by simpa using h
        simp [put, List.lookup_cons, h, this]
  | cons e rest ih =>
      obtain ⟨a, b⟩ := e
      simp only [put]
      by_cases hak : a = k
      · subst hak
        by_cases hx : x = a
        · simp [hx]
        · have : (x == a) = false := by simpa using hx
          simp [List.lookup_cons, hx, this]
      · simp only [if_neg hak, List.lookup_cons]
        by_cases hxa : x = a
        · subst hxa
          simp [hak]
        · have : (x == a) = false := by simpa using hxa
          simp [this, ih]

@[simp] theorem get?_empty (k : String) : (empty : Table α).get? k = none := rfl

theorem get?_insert (t : Table α) (k x : String) (v : α) :
    (t.insert k v).get? x = if x = k then some v else t.get? x :=
  lookup_put k x v t.entries

@[simp] theorem get?_insert_self (t : Table α) (k : String) (v : α) :
    (t.insert k v).get? k = some v := by
  simp [get?_insert]

theorem get?_erase (t : Table α) (k x : String) :
    (t.erase k).get? x = if x = k then none else t.get? x := by
  obtain ⟨es, hd⟩ := t
  simp only [get?, erase]
  clear hd
  induction es with
  | nil => simp
  | cons e rest ih =>
      obtain ⟨a, b⟩ := e
      by_cases hak : a = k
      · subst hak
        by_cases hx : x = a
        · simpa [hx] using ih
        · have : (x == a) = false := by simpa using hx
          simpa [List.lookup_cons, this, hx] using ih
      · by_cases hxa : x = a
        · subst hxa
          simp [hak]
        · have : (x == a) = false := by simpa using hxa
          simp [List.lookup_cons, this, hak, ih]

@[simp] theorem get?_erase_self (t : Table α) (k : String) : (t.erase k).get? k = none := by
  simp [get?_erase]

theorem put_put (k : String) (v w : α) (es : List (String × α)) :
    put k w (put k v es) = put k w es := by
  induction es with
  | nil => simp [put]
  | cons e rest ih =>
      simp only [put]
      split
      · simp [put]
      · next apart => simp [put, apart, ih]

/-- Of two bindings of one key the first leaves no trace. -/
theorem insert_insert (t : Table α) (k : String) (v w : α) :
    (t.insert k v).insert k w = t.insert k w := by
  simp only [insert, put_put]

theorem put_of_lookup {k : String} {v : α} {es : List (String × α)} (h : es.lookup k = some v) :
    put k v es = es := by
  induction es with
  | nil => cases h
  | cons e rest ih =>
      obtain ⟨a, b⟩ := e
      simp only [put]
      split
      · next same =>
          subst same
          rw [List.lookup_cons, beq_self_eq_true] at h
          cases h
          rfl
      · next apart =>
          have other : (k == a) = false := by simpa using Ne.symm apart
          rw [List.lookup_cons, other] at h
          rw [ih h]

/-- To bind a key as it is bound changes nothing. -/
theorem insert_of_get? {t : Table α} {k : String} {v : α} (h : t.get? k = some v) :
    t.insert k v = t := by
  obtain ⟨es, distinct⟩ := t
  simp only [insert, put_of_lookup h]

end Table

end ReliableQueue
