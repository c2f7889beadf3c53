import ReliableQueue.Proofs.Config.Layering
import ReliableQueue.Proofs.Text.Numerals
import ReliableQueue.Queue.Task

/-!
Texts that come from variables. What type the value of a variable has is guessed from how it looks,
and where a text is wanted, what it was taken for is printed again. So it arrives as it was given
exactly if it looks as it is printed, while a text in a file always does.
-/

namespace ReliableQueue.Config

open Queue (Keys)
open Text (lower)

/-! ### What is printed -/

namespace Environment

/-- What the value of a variable is where a text is wanted. -/
def printed (s : String) : String :=
  match scalar s with
  | .truth b => if b then "true" else "false"
  | .int i => toString i
  | .float x => x.text
  | .text s => s
  | .null => ""

theorem readText_scalar (o : Option String) (key s : String) :
    (Value.scalar o (scalar s)).readText key = .ok (printed s) := by
  have given : scalar s ≠ .null := by
    unfold scalar
    dsimp only
    repeat' split
    all_goals exact fun null => by cases null
  rw [printed]
  cases read : scalar s with
  | null => exact absurd read given
  | truth | int | float | text => rfl

/-- Whether a text looks as it is printed: it is a truth value in lower case, a whole number without
a plus sign, zeros in front and the like, another number in its shortest form, or none of these. -/
def isVerbatim (s : String) : Bool :=
  if lower s = "true" ∨ lower s = "false" then lower s = s
  else
    match Text.int64? s with
    | some _ => Text.isCanonical s.toList
    | none => (Text.float? s).all (·.text = s)

theorem printed_eq_iff (s : String) : printed s = s ↔ isVerbatim s = true := by
  unfold printed isVerbatim scalar
  dsimp only
  by_cases true : lower s = "true"
  · simp [true]
  by_cases false : lower s = "false"
  · simp [false]
  rw [if_neg true, if_neg false, if_neg (not_or.mpr ⟨true, false⟩)]
  cases whole : Text.int64? s with
  | some i => exact Text.toString_int64_iff whole
  | none =>
      cases Text.float? s with
      | some x => simp
      | none => simp

end Environment

/-! ### Settings that differ in one text -/

/-- The texts that every configuration has to give. -/
inductive Required where
  | url
  | name
deriving DecidableEq

namespace Required

def sec : Required → String
  | .url => "redis"
  | .name => "queue"

def field : Required → String
  | .url => "url"
  | .name => "name"

def path (r : Required) : String := r.sec ++ "." ++ r.field

def get : Required → Settings → String
  | .url, s => s.redis.url
  | .name, s => s.queue.name

def put : Required → Settings → String → Settings
  | .url, s, text => { s with redis := { s.redis with url := text } }
  | .name, s, text => { s with queue := { s.queue with name := text } }

theorem get_put (r : Required) (s : Settings) (text : String) : r.get (r.put s text) = text := by
  cases r <;> rfl

theorem mem_fields (r : Required) : (r.sec, r.field) ∈ fields := by
  cases r <;> decide

end Required

variable {sec name : String} {root root' v v' : Value} {e : String × Value} {c : Settings}

/-- Values that are alike but for one field of one section, where they hold `v` and `v'`. -/
structure Differs (sec name : String) (v v' root root' : Value) : Prop where
  others : ∀ x, x ≠ sec → root'.branch x = root.branch x
  table : (root.branch sec).isTable = true
  table' : (root'.branch sec).isTable = true
  fields : ∀ x, x ≠ name → (root'.branch sec).get? x = (root.branch sec).get? x
  own : (root.branch sec).get? name = some v
  own' : (root'.branch sec).get? name = some v'

theorem differs_setSource (r : Required) (root : Value) (plain : v.isScalar = true)
    (plain' : v'.isScalar = true) :
    Differs r.sec r.field v v' (root.setSource (r.path, v)) (root.setSource (r.path, v')) := by
  obtain ⟨path, sec, field⟩ := ofKey_field _ r.mem_fields
  have branch (w : Value) (x : String) : (root.setSource (r.path, w)).branch x =
      if x = r.sec then (root.branch x).setPath [.key r.field] w else root.branch x := by
    rw [Value.setSource_eq, Required.path, path, Value.branch_setPath, sec]
    rfl
  have own (w : Value) (scalar : w.isScalar = true) :
      ((root.setSource (r.path, w)).branch r.sec).get? r.field = some w := by
    rw [branch, if_pos rfl, Value.get?_setPath, field, if_pos rfl]
    cases w with
    | scalar => rfl
    | list | table => cases scalar
  constructor
  · intro x other
    rw [branch, branch, if_neg other, if_neg other]
  · rw [branch, if_pos rfl]
    exact Value.isTable_setPath _ _ _ _
  · rw [branch, if_pos rfl]
    exact Value.isTable_setPath _ _ _ _
  · intro x other
    rw [branch, branch, if_pos rfl, if_pos rfl, Value.get?_setPath, Value.get?_setPath, field,
      if_neg other, if_neg other]
  · exact own v plain
  · exact own v' plain'

theorem Differs.setSource (h : Differs sec name v v' root root') (nothing : gives sec name e = [])
    (keeps : keepsTable sec e = true) :
    Differs sec name v v' (root.setSource e) (root'.setSource e) := by
  obtain ⟨table, fields⟩ := branch_setSource h.table keeps
  obtain ⟨table', fields'⟩ := branch_setSource h.table' keeps
  refine ⟨fun x other => ?_, table, table', fun x other => ?_, ?_, ?_⟩
  · obtain ⟨s, path, key⟩ := PathStep.ofKey_cases e.1
    rw [Value.setSource_eq, Value.setSource_eq, key, Value.branch_setPath, Value.branch_setPath,
      h.others x other]
  · rw [fields, fields', h.fields x other]
  · rw [fields, fieldAfter_of_nothing nothing, h.own]
  · rw [fields', fieldAfter_of_nothing nothing, h.own']

theorem Differs.overlay (h : Differs sec name v v' root root') (l : Layer)
    (rest : ∀ e ∈ l, gives sec name e = [] ∧ keepsTable sec e = true) :
    Differs sec name v v' (root.overlay l) (root'.overlay l) := by
  induction l generalizing root root' with
  | nil => exact h
  | cons e l ih =>
      obtain ⟨⟨nothing, keeps⟩, others⟩ := List.forall_mem_cons.mp rest
      exact ih (h.setSource nothing keeps) others

/-- Settings that can be read with one text can be read with another one. -/
theorem Differs.read {r : Required} {text : String} (h : Differs r.sec r.field v v' root root')
    (reads : v'.readText r.path = .ok text) (read : Settings.read root = .ok c) :
    Settings.read root' = .ok (r.put c text) := by
  obtain ⟨redis, queue, recovery, logging⟩ := Settings.read_iff.mp read
  obtain ⟨o, es, table⟩ := Value.eq_table h.table
  obtain ⟨o', es', table'⟩ := Value.eq_table h.table'
  have own : es'.lookup r.field = some v' := by
    have own := h.own'
    rw [table'] at own
    exact own
  have fields (x : String) (other : x ≠ r.field) : es'.lookup x = es.lookup x := by
    have fields := h.fields x other
    rw [table, table'] at fields
    exact fields
  rw [Settings.read_iff]
  cases r with
  | url =>
      rw [h.others "queue" (by decide), h.others "recovery" (by decide),
        h.others "logging" (by decide), show root'.branch "redis" = _ from table']
      exact ⟨RedisSettings.read_table_iff.mpr ⟨v', own, reads⟩, queue, recovery, logging⟩
  | name =>
      rw [show root.branch "queue" = _ from table] at queue
      obtain ⟨-, workers, buffer, timeout, poll⟩ := QueueSettings.read_table_iff.mp queue
      rw [h.others "redis" (by decide), h.others "recovery" (by decide),
        h.others "logging" (by decide), show root'.branch "queue" = _ from table']
      refine ⟨redis, QueueSettings.read_table_iff.mpr ⟨⟨v', own, reads⟩, ?_, ?_, ?_, ?_⟩, recovery,
        logging⟩
      · rw [fields "workers" (by decide)]
        exact workers
      · rw [fields "buffer_size" (by decide)]
        exact buffer
      · rw [fields "execution_timeout_secs" (by decide)]
        exact timeout
      · rw [fields "poll_interval_ms" (by decide)]
        exact poll

/-! ### Texts from variables -/

/-- A variable sets a text, and none after it sets the same or replaces its section. -/
structure SetsLast (r : Required) (var : String) (after : Environment) : Prop where
  path : Environment.path? var = some r.path
  last : ∀ e ∈ after.source, gives r.sec r.field e = [] ∧ keepsTable r.sec e = true

variable {r : Required} {var s t : String} {before after : Environment}

theorem SetsLast.ofSources (h : SetsLast r var after) (files : List Layer)
    (read : Settings.ofSources (files ++ [Environment.source (before ++ (var, t) :: after)]) =
      .ok c) :
    Settings.ofSources (files ++ [Environment.source (before ++ (var, s) :: after)]) =
      .ok (r.put c (Environment.printed s)) := by
  have all (s : String) :
      (files ++ [Environment.source (before ++ (var, s) :: after)]).foldl Value.overlay .emptyTable =
        (((files.foldl Value.overlay .emptyTable).overlay before.source).setSource
          (r.path, .scalar (some Environment.origin) (Environment.scalar s))).overlay
          after.source := by
    rw [List.foldl_append, source_append_cons before s after h.path, List.foldl_cons,
      List.foldl_nil, Value.overlay_append]
    rfl
  rw [Settings.ofSources, all] at read ⊢
  exact ((differs_setSource r _ rfl rfl).overlay _ h.last).read
    (Environment.readText_scalar _ _ s) read

/-- Such a variable is not the one that names the environment. -/
theorem SetsLast.environmentName (h : SetsLast r var after) (before : Environment) (s t : String) :
    Settings.environmentName (before ++ (var, s) :: after) =
      Settings.environmentName (before ++ (var, t) :: after) := by
  have other : "TASKQUEUE_ENV" ≠ var := by
    rintro rfl
    have none : Environment.path? "TASKQUEUE_ENV" = none := by decide +kernel
    cases none.symm.trans h.path
  have lookup (s : String) : (before ++ (var, s) :: after).lookup "TASKQUEUE_ENV" =
      (before.lookup "TASKQUEUE_ENV").or (after.lookup "TASKQUEUE_ENV") := by
    rw [List.lookup_append, List.lookup_cons, beq_false_of_ne other]
  rw [Settings.environmentName, Settings.environmentName, lookup, lookup]

/-- What becomes of a text `s` that a variable gives. The configuration is otherwise valid: with some
text for the variable there are settings `c`. -/
structure Arrives (r : Required) (var s : String) (before after : Environment) : Prop where
  load : ∀ d env env' t c, Settings.environment d env = before ++ (var, t) :: after →
    Settings.environment d env' = before ++ (var, s) :: after → Settings.load d env = .ok c →
    Settings.load d env' = .ok (r.put c (Environment.printed s))
  fromFile : ∀ d path t c, Settings.fromFile d (before ++ (var, t) :: after) path = .ok c →
    Settings.fromFile d (before ++ (var, s) :: after) path =
      .ok (r.put c (Environment.printed s))
  verbatim : ∀ c, r.get (r.put c (Environment.printed s)) = s ↔ Environment.isVerbatim s = true
  /-- The same text in a file. -/
  text : ∀ layers c o, (∀ sec ∈ sections, ∀ l ∈ layers, ∀ e ∈ l, keepsTable sec e = true) →
    Settings.ofSources layers = .ok c →
    lastSetting? layers r.sec r.field = some (.scalar o (.text s)) → r.get c = s
  /-- Processes that are configured in one way and in the other work on the same queue. -/
  keys : ∀ c c', r = .name → r.get c' = s →
    (Keys.ofName (r.put c (Environment.printed s)).queue.name = Keys.ofName c'.queue.name ↔
      Environment.isVerbatim s = true)

theorem ofName_inj {a b : String} : Keys.ofName a = Keys.ofName b ↔ a = b :=
  ⟨congrArg Keys.pending, congrArg Keys.ofName⟩

/-- A text that a variable gives is taken for a truth value or a number if it looks like one, and
arrives as what that is printed as; it arrives as it is, as a text in a file does, exactly if it
looks as it is printed. -/
theorem arrives_of_setsLast (before : Environment) (s : String) (h : SetsLast r var after) :
    Arrives r var s before after where
  load d env env' t c given given' loaded := by
    simp only [Settings.load, given, given', h.environmentName before s t, bind_eq_ok] at loaded ⊢
    obtain ⟨base, hb, specific, hs, read⟩ := loaded
    exact ⟨base, hb, specific, hs, h.ofSources [base, specific] read⟩
  fromFile d path t c loaded := by
    simp only [Settings.fromFile, bind_eq_ok] at loaded ⊢
    obtain ⟨file, found, read⟩ := loaded
    exact ⟨file, found, h.ofSources [file] read⟩
  verbatim c := by rw [r.get_put, Environment.printed_eq_iff]
  text layers c o keeps read last := by
    have resolves := resolves_of_sources keeps read
    cases r with
    | url =>
        obtain ⟨v, given, text⟩ := resolves.url
        cases given.symm.trans last
        exact (Except.ok.inj text).symm
    | name =>
        obtain ⟨v, given, text⟩ := resolves.name
        cases given.symm.trans last
        exact (Except.ok.inj text).symm
  keys c c' own given := by
    subst own
    rw [show c'.queue.name = s from given, ofName_inj]
    exact Environment.printed_eq_iff s

def localFiles : Directory where
  name := "work"
  files := [("config/default.toml",
    "[redis]\nurl = \"redis://localhost:6379\"\n[queue]\nname = \"tasks\"\n")]

theorem arrives_of_setsLast_mail :
    SetsLast .name "TASKQUEUE__QUEUE__NAME" [("TASKQUEUE__LOGGING__JSON", "1")] ∧
      Arrives .name "TASKQUEUE__QUEUE__NAME" "mail" [] [("TASKQUEUE__LOGGING__JSON", "1")] ∧
      Settings.load localFiles
          [("TASKQUEUE__QUEUE__NAME", "mail"), ("TASKQUEUE__LOGGING__JSON", "1")] =
        .ok { redis := { url := "redis://localhost:6379" }, queue := { name := "mail" }
              logging := { json := true } } := by
  have sets : SetsLast .name "TASKQUEUE__QUEUE__NAME" [("TASKQUEUE__LOGGING__JSON", "1")] :=
    ⟨by decide +kernel, by decide +kernel⟩
  have arrives := arrives_of_setsLast [] "mail" sets
  have other : Settings.load localFiles
      [("TASKQUEUE__QUEUE__NAME", "jobs"), ("TASKQUEUE__LOGGING__JSON", "1")] =
        .ok { redis := { url := "redis://localhost:6379" }, queue := { name := "jobs" }
              logging := { json := true } } := eq_ok_of_toOption (by decide +kernel)
  exact ⟨sets, arrives, arrives.load _ _ _ _ _ rfl rfl other⟩

/-- A name that is a number with zeros in front loses them on the way. -/
theorem not_arrives_always :
    ¬∀ (d : Directory) (env : Environment) (s : String) (c : Settings),
      env.lookup "TASKQUEUE__QUEUE__NAME" = some s → Settings.load d env = .ok c →
        c.queue.name = s := by
  intro always
  have loaded : Settings.load localFiles [("TASKQUEUE__QUEUE__NAME", "007")] =
      .ok { redis := { url := "redis://localhost:6379" }, queue := { name := "7" } } :=
    eq_ok_of_toOption (by decide +kernel)
  have same := always _ _ "007" _ (by decide) loaded
  revert same
  decide

end ReliableQueue.Config
