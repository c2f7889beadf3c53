import ReliableQueue.Config.Loading
import ReliableQueue.Proofs.Config.Reading

/-!
Layers of settings. Whatever the layers are, each field is settled by the last one that says
something of it, and by its default if none does.
-/

namespace ReliableQueue.Config

open Text (lower)

/-- What one source says. -/
abbrev Layer := List (String × Value)

variable {sec name : String} {root v : Value} {e : String × Value} {a g : Option Value}

/-! ### What a layer says of a field -/

namespace Value

/-- What a value at the end of a path gives the field from which the path leads on. -/
def behind : List PathStep → Value → Value
  | [], v => v
  | path, v => emptyTable.setPath path v

/-- The last of values that says anything. -/
def newest (vs : List Value) : Option Value := (vs.filter fun v => !v.isBlank).getLast?

theorem newest_append (vs ws : List Value) :
    newest (vs ++ ws) = (newest ws).or (newest vs) := by
  rw [newest, List.filter_append, List.getLast?_append]
  rfl

end Value

open Value (newest)

/-- The values that an entry of a source gives a field of a section, in their order. -/
def gives (sec name : String) (e : String × Value) : List Value :=
  match PathStep.ofKey e.1 with
  | [.key s] => if lower s = sec then Value.named name e.2.entries else []
  | .key s :: .key f :: path => if lower s = sec ∧ lower f = name then [e.2.behind path] else []
  | _ => []

/-- Whether an entry that gives a section as a whole gives it as a table. -/
def keepsTable (sec : String) (e : String × Value) : Bool :=
  match PathStep.ofKey e.1 with
  | [.key s] => lower s ≠ sec || e.2.isTable
  -- An index makes a list of the section.
  | .key s :: .index _ :: _ => lower s ≠ sec
  | _ => true

/-- The value of a field in one layer. -/
def Layer.setting? (l : Layer) (sec name : String) : Option Value :=
  newest (l.flatMap (gives sec name))

theorem setting?_append (l l' : Layer) (sec name : String) :
    Layer.setting? (l ++ l') sec name = (l'.setting? sec name).or (l.setting? sec name) := by
  rw [Layer.setting?, List.flatMap_append, Value.newest_append]
  rfl

/-- All fields, each after its section. -/
def fields : List (String × String) :=
  [("redis", "url"), ("queue", "name"), ("queue", "workers"), ("queue", "buffer_size"),
    ("queue", "execution_timeout_secs"), ("queue", "poll_interval_ms"), ("recovery", "enabled"),
    ("recovery", "interval_secs"), ("recovery", "max_age_secs"), ("logging", "filter"),
    ("logging", "json")]

theorem ofKey_field : ∀ f ∈ fields,
    PathStep.ofKey (f.1 ++ "." ++ f.2) = [.key f.1, .key f.2] ∧ lower f.1 = f.1 ∧
      lower f.2 = f.2 := by
  decide +kernel

theorem source_append_cons (before : Environment) {var path : String} (value : String)
    (after : Environment) (spelled : Environment.path? var = some path) :
    Environment.source (before ++ (var, value) :: after) = before.source ++
      (path, .scalar (some Environment.origin) (Environment.scalar value)) :: after.source := by
  simp [Environment.source, List.filterMap_append, spelled]

/-- The last variable with the name of a field sets it. -/
theorem setting?_of_variable {f : String × String} (known : f ∈ fields) (before : Environment)
    {var value : String} {after : Environment}
    (spelled : Environment.path? var = some (f.1 ++ "." ++ f.2))
    (last : ∀ e ∈ after.source, gives f.1 f.2 e = []) :
    Layer.setting? (Environment.source (before ++ (var, value) :: after)) f.1 f.2 =
      some (.scalar (some Environment.origin) (Environment.scalar value)) := by
  obtain ⟨path, sec, name⟩ := ofKey_field f known
  have own (v : Value) : gives f.1 f.2 (f.1 ++ "." ++ f.2, v) = [v] := by
    simp [gives, path, sec, name, Value.behind]
  have nothing : after.source.flatMap (gives f.1 f.2) = [] :=
    List.flatMap_eq_nil_iff.mpr last
  rw [source_append_cons before value after spelled, setting?_append, Layer.setting?,
    List.flatMap_cons, own, nothing]
  rfl

/-! ### What merging makes of it -/

/-- What an entry makes of a field. -/
def fieldAfter (sec name : String) (e : String × Value) (a : Option Value) : Option Value :=
  match PathStep.ofKey e.1 with
  | [.key s] => if lower s = sec then Value.stack a (Value.named name e.2.entries) else a
  | .key s :: .key f :: path =>
      if lower s = sec ∧ lower f = name then some (e.2.along path (a.getD .emptyTable)) else a
  | _ => a

theorem fieldAfter_of_nothing (nothing : gives sec name e = []) : fieldAfter sec name e a = a := by
  unfold fieldAfter
  unfold gives at nothing
  split at nothing
  · split at nothing
    · simp [*, Value.stack]
    · simp [*]
  · split at nothing
    · cases nothing
    · simp [*]
  · rfl

/-- An entry that gives a section as a table, if as a whole, changes it field by field. -/
theorem branch_setSource (table : (root.branch sec).isTable = true)
    (keeps : keepsTable sec e = true) :
    ((root.setSource e).branch sec).isTable = true ∧ ∀ name,
      ((root.setSource e).branch sec).get? name =
        fieldAfter sec name e ((root.branch sec).get? name) := by
  obtain ⟨s, path, key⟩ := PathStep.ofKey_cases e.1
  rw [Value.setSource_eq, key, Value.branch_setPath]
  rcases Decidable.em (sec = lower s) with rfl | apart
  · rw [if_pos rfl]
    cases path with
    | nil =>
        have whole : e.2.isTable = true := by simpa [keepsTable, key] using keeps
        obtain ⟨o, es, same⟩ := Value.eq_table whole
        rw [same, Value.along, Value.onto]
        refine ⟨Value.isTable_mergeAll es (.inl table), fun name => ?_⟩
        rw [Value.get?_mergeAll, fieldAfter, key]
        simp [same, Value.entries]
    | cons step rest =>
        cases step with
        | index i => simp [keepsTable, key] at keeps
        | key f =>
            refine ⟨Value.isTable_setPath _ f rest e.2, fun name => ?_⟩
            rw [Value.along, Value.get?_setPath, fieldAfter, key]
            · simp [Value.branch, eq_comm]
            · simp
  · rw [if_neg apart]
    refine ⟨table, fun name => ?_⟩
    rw [fieldAfter, key]
    cases path with
    | nil => simp [Ne.symm apart]
    | cons step rest => cases step <;> simp [Ne.symm apart]

/-- How what stands in a field comes from what it was given last. -/
inductive Settled : Option Value → Option Value → Prop where
  | unset : Settled none none
  /-- An empty table says nothing, and stands where nothing else does. -/
  | blank (o : Option String) : Settled none (some (.table o []))
  | scalar (o : Option String) (s : Scalar) : Settled (some (.scalar o s)) (some (.scalar o s))
  | compound {v w : Value} (given : v.isScalar = false) (there : w.isScalar = false) :
      Settled (some v) (some w)

theorem Settled.onto (h : Settled g a) (v : Value) :
    Settled ((newest [v]).or g) (some (v.onto (a.getD .emptyTable))) := by
  cases v with
  | scalar o s => exact .scalar o s
  | list o vs => exact .compound rfl rfl
  | table o es =>
      cases es with
      | cons e rest =>
          exact .compound rfl (Value.isScalar_of_isTable
            (Value.isTable_mergeAll _ (.inr (List.cons_ne_nil e rest))))
      | nil =>
          cases h with
          | unset => exact .blank none
          | blank o => exact .blank o
          | scalar o s => exact .scalar o s
          | compound given there => exact .compound given there

theorem Settled.along (h : Settled g a) (path : List PathStep) (v : Value) :
    Settled ((newest [v.behind path]).or g) (some (v.along path (a.getD .emptyTable))) := by
  cases path with
  | nil => exact h.onto v
  | cons step rest =>
      obtain ⟨plain, blank⟩ := Value.compound_setPath .emptyTable step rest v
      have last : newest [v.behind (step :: rest)] = some (v.behind (step :: rest)) := by
        simp [newest, Value.behind, blank]
      rw [last]
      exact .compound plain (Value.compound_setPath _ step rest v).1

theorem Settled.stack (h : Settled g a) (vs : List Value) :
    Settled ((newest vs).or g) (Value.stack a vs) := by
  induction vs generalizing g a with
  | nil => exact h
  | cons v rest ih =>
      have split : newest (v :: rest) = (newest rest).or (newest [v]) :=
        Value.newest_append [v] rest
      rw [split, Option.or_assoc]
      exact ih (h.onto v)

theorem Settled.fieldAfter (h : Settled g a) (e : String × Value) :
    Settled ((newest (gives sec name e)).or g) (fieldAfter sec name e a) := by
  unfold gives Config.fieldAfter
  split
  · split
    · exact h.stack _
    · exact h
  · split
    · exact h.along _ e.2
    · exact h
  · exact h

/-- A section is a table, and its fields come from what they were given last. -/
structure Reflects (sec : String) (given : String → Option Value) (root : Value) : Prop where
  table : (root.branch sec).isTable = true
  fields : ∀ name, Settled (given name) ((root.branch sec).get? name)

theorem reflects_empty (sec : String) : Reflects sec (fun _ => none) .emptyTable :=
  ⟨rfl, fun _ => .unset⟩

theorem Reflects.setSource {given : String → Option Value} (h : Reflects sec given root)
    (keeps : keepsTable sec e = true) :
    Reflects sec (fun name => (newest (gives sec name e)).or (given name)) (root.setSource e) := by
  obtain ⟨table, fields⟩ := branch_setSource h.table keeps
  refine ⟨table, fun name => ?_⟩
  rw [fields]
  exact (h.fields name).fieldAfter e

theorem Reflects.overlay {given : String → Option Value} (h : Reflects sec given root) (l : Layer)
    (keeps : ∀ e ∈ l, keepsTable sec e = true) :
    Reflects sec (fun name => (l.setting? sec name).or (given name)) (root.overlay l) := by
  induction l generalizing root given with
  | nil => exact h
  | cons e rest ih =>
      obtain ⟨first, others⟩ := List.forall_mem_cons.mp keeps
      have split (name : String) : Layer.setting? (e :: rest) sec name =
          (Layer.setting? rest sec name).or (newest (gives sec name e)) := by
        rw [Layer.setting?, List.flatMap_cons, Value.newest_append]
        rfl
      simp only [split, Option.or_assoc]
      exact ih (h.setSource first) others

/-! ### Settings -/

section

variable {α : Type} {read : Value → Except Error α} {d x : α}

theorem Settled.takes (h : Settled g a) (plain : Plain read) (takes : Takes read d a x) :
    Takes read d g x := by
  cases h with
  | unset => exact takes
  | blank o => exact absurd takes (plain _ rfl x)
  | scalar o s => exact takes
  | compound given there => exact absurd takes (plain _ there x)

theorem Settled.demands (h : Settled g a) (plain : Plain read) (reads : ∃ v ∈ a, read v = .ok x) :
    ∃ v ∈ g, read v = .ok x := by
  obtain ⟨v, there, reads⟩ := reads
  cases there
  cases h with
  | blank o => exact absurd reads (plain _ rfl x)
  | scalar o s => exact ⟨_, rfl, reads⟩
  | compound given there => exact absurd reads (plain _ there x)

end

theorem Reflects.entries {given : String → Option Value} (h : Reflects sec given root) :
    ∃ o es, root.branch sec = .table o es ∧ ∀ name, Settled (given name) (es.lookup name) := by
  obtain ⟨o, es, there⟩ := Value.eq_table h.table
  have fields := h.fields
  rw [there] at fields
  exact ⟨o, es, there, fields⟩

def sections : List String := ["redis", "queue", "recovery", "logging"]

/-- Each setting is what its value reads as, and its default where it has none. -/
structure Settings.Resolves (s : Settings) (value : String → String → Option Value) : Prop where
  url : ∃ v ∈ value "redis" "url", v.readText "redis.url" = .ok s.redis.url
  name : ∃ v ∈ value "queue" "name", v.readText "queue.name" = .ok s.queue.name
  workers : Takes (Value.readWord "queue.workers") 10 (value "queue" "workers") s.queue.workers
  bufferSize : Takes (Value.readWord "queue.buffer_size") 100 (value "queue" "buffer_size")
    s.queue.bufferSize
  executionTimeout : Takes (Value.readWord "queue.execution_timeout_secs") 30
    (value "queue" "execution_timeout_secs") s.queue.executionTimeoutSeconds
  pollInterval : Takes (Value.readWord "queue.poll_interval_ms") 1000
    (value "queue" "poll_interval_ms") s.queue.pollIntervalMillis
  enabled : Takes (Value.readTruth "recovery.enabled") true (value "recovery" "enabled")
    s.recovery.enabled
  interval : Takes (Value.readWord "recovery.interval_secs") 60 (value "recovery" "interval_secs")
    s.recovery.intervalSeconds
  maxAge : Takes (Value.readWord "recovery.max_age_secs") 300 (value "recovery" "max_age_secs")
    s.recovery.maxAgeSeconds
  filter : Takes (Value.readText "logging.filter") "taskqueue=info" (value "logging" "filter")
    s.logging.filter
  json : Takes (Value.readTruth "logging.json") false (value "logging" "json") s.logging.json

theorem resolves_of_read {value : String → String → Option Value} {s : Settings}
    (h : ∀ sec ∈ sections, Reflects sec (value sec) root) (read : Settings.read root = .ok s) :
    s.Resolves value := by
  obtain ⟨hr, hq, hv, hl⟩ := Settings.read_iff.mp read
  obtain ⟨_, _, table, redis⟩ := (h "redis" (by decide)).entries
  have url := RedisSettings.read_table_iff.mp (table ▸ hr)
  obtain ⟨_, _, table, queue⟩ := (h "queue" (by decide)).entries
  obtain ⟨name, workers, buffer, timeout, poll⟩ := QueueSettings.read_table_iff.mp (table ▸ hq)
  obtain ⟨_, _, table, recovery⟩ := (h "recovery" (by decide)).entries
  obtain ⟨enabled, interval, maxAge⟩ := RecoverySettings.read_table_iff.mp (table ▸ hv)
  obtain ⟨_, _, table, logging⟩ := (h "logging" (by decide)).entries
  obtain ⟨filter, json⟩ := LoggingSettings.read_table_iff.mp (table ▸ hl)
  exact {
    url := (redis _).demands (plain_readText _) url
    name := (queue _).demands (plain_readText _) name
    workers := (queue _).takes (plain_readWord _) workers
    bufferSize := (queue _).takes (plain_readWord _) buffer
    executionTimeout := (queue _).takes (plain_readWord _) timeout
    pollInterval := (queue _).takes (plain_readWord _) poll
    enabled := (recovery _).takes (plain_readTruth _) enabled
    interval := (recovery _).takes (plain_readWord _) interval
    maxAge := (recovery _).takes (plain_readWord _) maxAge
    filter := (logging _).takes (plain_readText _) filter
    json := (logging _).takes (plain_readTruth _) json }

/-- The value of a field in the last layer that sets it. -/
def lastSetting? (layers : List Layer) (sec name : String) : Option Value :=
  layers.reverse.findSome? (·.setting? sec name)

/-- A layer hides nothing of a field that it does not set, whatever else it sets. -/
theorem lastSetting?_of_unset (below above : List Layer) {l : Layer}
    (unset : l.setting? sec name = none) :
    lastSetting? (below ++ l :: above) sec name = lastSetting? (below ++ above) sec name := by
  simp [lastSetting?, unset]

theorem Reflects.overlays {given : String → Option Value} (h : Reflects sec given root)
    (layers : List Layer) (keeps : ∀ l ∈ layers, ∀ e ∈ l, keepsTable sec e = true) :
    Reflects sec (fun name => (lastSetting? layers sec name).or (given name))
      (layers.foldl Value.overlay root) := by
  induction layers generalizing root given with
  | nil => exact h
  | cons l rest ih =>
      obtain ⟨first, others⟩ := List.forall_mem_cons.mp keeps
      have split (name : String) : lastSetting? (l :: rest) sec name =
          (lastSetting? rest sec name).or (l.setting? sec name) := by
        rw [lastSetting?, List.reverse_cons, List.findSome?_append, lastSetting?]
        cases found : l.setting? sec name <;> simp [found]
      simp only [split, Option.or_assoc]
      exact ih (h.overlay l first) others

theorem resolves_of_sources {layers : List Layer} {s : Settings}
    (keeps : ∀ sec ∈ sections, ∀ l ∈ layers, ∀ e ∈ l, keepsTable sec e = true)
    (read : Settings.ofSources layers = .ok s) : s.Resolves (lastSetting? layers) := by
  refine resolves_of_read (fun sec known => ?_) read
  have reflects := (reflects_empty sec).overlays layers (keeps sec known)
  simpa only [Option.or_none] using reflects

/-! ### Empty sections -/

/-- A layer with, in the second one, an empty section somewhere. -/
inductive WithEmpty (sec : String) : Layer → Layer → Prop where
  | same (l : Layer) : WithEmpty sec l l
  | added (before after : Layer) (o : Option String) :
      WithEmpty sec (before ++ after) (before ++ (sec, .table o []) :: after)

theorem setSource_congr {root root' : Value} (same : root'.branch = root.branch)
    (e : String × Value) : (root'.setSource e).branch = (root.setSource e).branch := by
  obtain ⟨s, path, key⟩ := PathStep.ofKey_cases e.1
  funext x
  rw [Value.setSource_eq, Value.setSource_eq, key, Value.branch_setPath, Value.branch_setPath,
    same]

theorem overlay_congr {root root' : Value} (same : root'.branch = root.branch) (l : Layer) :
    (root'.overlay l).branch = (root.overlay l).branch := by
  induction l generalizing root root' with
  | nil => exact same
  | cons e rest ih => exact ih (setSource_congr same e)

theorem WithEmpty.branch {l l' : Layer} (h : WithEmpty sec l l')
    (key : PathStep.ofKey sec = [.key sec]) {root root' : Value}
    (same : root'.branch = root.branch) : (root'.overlay l').branch = (root.overlay l).branch := by
  cases h with
  | same => exact overlay_congr same l
  | added before after o =>
      have blank : ((root'.overlay before).setSource (sec, .table o [])).branch =
          (root.overlay before).branch := by
        funext x
        rw [Value.setSource_eq, key, Value.branch_setPath, overlay_congr same before]
        split <;> rfl
      rw [Value.overlay_append, Value.overlay_append]
      exact overlay_congr blank after

theorem read_congr {root root' : Value} (same : root'.branch = root.branch) (s : Settings) :
    Settings.read root' = .ok s ↔ Settings.read root = .ok s := by
  rw [Settings.read_iff, Settings.read_iff, same]

/-! ### Settings of a process -/

/-- What the two files say that a process looks for. -/
structure Layered (d : Directory) (env : Environment) (base specific : Layer) : Prop where
  base : d.sourceIfAny "config/default" = .ok base
  specific : d.sourceIfAny
    ("config/" ++ ((Settings.environment d env).lookup "TASKQUEUE_ENV").getD "development") =
      .ok specific

theorem Layered.load {d : Directory} {env : Environment} {base specific : Layer}
    (h : Layered d env base specific) : Settings.load d env =
      Settings.ofSources [base, specific, (Settings.environment d env).source] := by
  have specific := h.specific
  simp only [Settings.load, h.base, Settings.environmentName, specific]
  rfl

/-- How the settings of a process come about. -/
structure Resolution (d : Directory) (env vars : Environment) (base specific : Layer) : Prop where
  /-- Each setting is what the last layer says that sets it, and its default if none does. -/
  settings : ∀ s, Settings.load d env = .ok s →
    s.Resolves (lastSetting? [base, specific, vars.source])
  /-- A layer hides nothing of a field that it does not set, whatever else it sets. -/
  unset : ∀ below l above, [base, specific, vars.source] = below ++ l :: above →
    ∀ sec name, l.setting? sec name = none →
      lastSetting? [base, specific, vars.source] sec name = lastSetting? (below ++ above) sec name
  /-- The variables set the fields that their names spell. -/
  spelled : ∀ f ∈ fields, ∀ before var value after, vars = before ++ (var, value) :: after →
    Environment.path? var = some (f.1 ++ "." ++ f.2) →
    (∀ e ∈ Environment.source after, gives f.1 f.2 e = []) →
    Layer.setting? vars.source f.1 f.2 =
      some (.scalar (some Environment.origin) (Environment.scalar value))
  /-- Without an address or a name there are no settings. -/
  required : ∀ f ∈ [("redis", "url"), ("queue", "name")],
    (∀ l ∈ [base, specific, vars.source], l.setting? f.1 f.2 = none) →
      ∃ e, Settings.load d env = .error e
  /-- An empty section of the recovery or the logging is as good as none. -/
  empty : ∀ sec ∈ ["recovery", "logging"], ∀ d' base' specific',
    Settings.environment d' env = vars → Layered d' env base' specific' →
    WithEmpty sec base base' → WithEmpty sec specific specific' →
    ∀ s, Settings.load d' env = .ok s ↔ Settings.load d env = .ok s

/-- The settings of a process are put together field by field from the default file, the file of
its environment and its variables. -/
theorem resolves_of_load {d : Directory} {env : Environment} {base specific : Layer}
    (layered : Layered d env base specific)
    (keeps : ∀ sec ∈ sections, ∀ l ∈ [base, specific, (Settings.environment d env).source],
      ∀ e ∈ l, keepsTable sec e = true) :
    Resolution d env (Settings.environment d env) base specific where
  settings s loaded := resolves_of_sources keeps (layered.load ▸ loaded)
  unset below l above all sec name unset := by
    rw [all]
    exact lastSetting?_of_unset below above unset
  spelled f known before var value after all named last := by
    rw [all]
    exact setting?_of_variable known before named last
  required f known unset := by
    have none : lastSetting? [base, specific, (Settings.environment d env).source] f.1 f.2 = none :=
      List.findSome?_eq_none_iff.mpr fun l hl => unset l (List.mem_reverse.mp hl)
    cases loaded : Settings.load d env with
    | error e => exact ⟨e, rfl⟩
    | ok s =>
        have resolves := resolves_of_sources keeps (layered.load ▸ loaded)
        simp only [List.mem_cons, List.not_mem_nil, or_false] at known
        rcases known with rfl | rfl
        · obtain ⟨v, given, -⟩ := resolves.url
          cases none.symm.trans given
        · obtain ⟨v, given, -⟩ := resolves.name
          cases none.symm.trans given
  empty sec known d' base' specific' same layered' first second s := by
    have keys : ∀ sec ∈ ["recovery", "logging"], PathStep.ofKey sec = [.key sec] := by decide
    have key := keys sec known
    rw [layered.load, layered'.load, same]
    exact read_congr (overlay_congr (second.branch key (first.branch key rfl)) _) s

/-- The file of the environment overrides the number of workers, and a variable the name. -/
def partly : Directory where
  name := "work"
  files := [("config/default.toml",
      "[redis]\nurl = \"redis://localhost\"\n[queue]\nname = \"tasks\"\nworkers = 4\n"),
    ("config/production.toml", "[queue]\nworkers = 8\n[recovery]\nenabled = false\n")]

def partlyVariables : Environment :=
  [("TASKQUEUE_ENV", "production"), ("TASKQUEUE__QUEUE__NAME", "mail")]

theorem resolves_of_load_partly : ∃ base specific, Layered partly partlyVariables base specific ∧
    Settings.Resolves
      { redis := { url := "redis://localhost" }, queue := { name := "mail", workers := 8 }
        recovery := { enabled := false } }
      (lastSetting?
        [base, specific, (Settings.environment partly partlyVariables).source]) := by
  have base : (partly.sourceIfAny "config/default").toOption =
      some ((partly.sourceIfAny "config/default").toOption.get (by decide +kernel)) :=
    (Option.some_get _).symm
  have specific : (partly.sourceIfAny "config/production").toOption =
      some ((partly.sourceIfAny "config/production").toOption.get (by decide +kernel)) :=
    (Option.some_get _).symm
  have layered : Layered partly partlyVariables _ _ :=
    ⟨eq_ok_of_toOption base, eq_ok_of_toOption specific⟩
  exact ⟨_, _, layered, (resolves_of_load layered (by decide +kernel)).settings _
    (eq_ok_of_toOption (by decide +kernel))⟩

end ReliableQueue.Config
