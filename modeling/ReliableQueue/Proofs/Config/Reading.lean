import ReliableQueue.Config.Reading
import ReliableQueue.Proofs.Config.Merging

/-!
When settings can be read and what they are then, section by section: a field is what its value
reads as, or its default where it has none.
-/

namespace ReliableQueue.Config

theorem bind_eq_ok {α β : Type} {x : Except Error α} {f : α → Except Error β} {b : β} :
    x >>= f = .ok b ↔ ∃ a, x = .ok a ∧ f a = .ok b := by
  cases x with
  | error e => exact ⟨by rintro ⟨⟩, by rintro ⟨a, ⟨⟩, -⟩⟩
  | ok a => exact ⟨fun h => ⟨a, rfl, h⟩, by rintro ⟨a, ⟨⟩, h⟩; exact h⟩

theorem eq_ok_of_toOption {α : Type} {x : Except Error α} {a : α} (h : x.toOption = some a) :
    x = .ok a := by
  cases x with
  | error e => cases h
  | ok b => exact congrArg Except.ok (Option.some.inj h)

variable {α : Type} {read : Value → Except Error α} {d x : α} {es : List (String × Value)}

/-- What a setting is that `read` takes from a value, if there is one. -/
def Takes (read : Value → Except Error α) (d : α) (v? : Option Value) (x : α) : Prop :=
  match v? with
  | none => x = d
  | some v => read v = .ok x

/-- Settings are read from scalars only. -/
def Plain (read : Value → Except Error α) : Prop :=
  ∀ v, v.isScalar = false → ∀ x, read v ≠ .ok x

theorem plain_of_refuses (list : ∀ o vs, ∃ e, read (.list o vs) = .error e)
    (table : ∀ o es, ∃ e, read (.table o es) = .error e) : Plain read := by
  intro v compound x reads
  cases v with
  | scalar => cases compound
  | list o vs =>
      obtain ⟨e, refused⟩ := list o vs
      cases refused.symm.trans reads
  | table o es =>
      obtain ⟨e, refused⟩ := table o es
      cases refused.symm.trans reads

theorem plain_readText (key : String) : Plain (Value.readText key) :=
  plain_of_refuses (fun _ _ => ⟨_, rfl⟩) fun _ _ => ⟨_, rfl⟩

theorem plain_readWord (key : String) : Plain (Value.readWord key) :=
  plain_of_refuses (fun _ _ => ⟨_, rfl⟩) fun _ _ => ⟨_, rfl⟩

theorem plain_readTruth (key : String) : Plain (Value.readTruth key) :=
  plain_of_refuses (fun _ _ => ⟨_, rfl⟩) fun _ _ => ⟨_, rfl⟩

theorem readAny_eq_ok {v? : Option Value} :
    (match v? with
      | none => .ok none
      | some v => (read v).map some : Except Error (Option α)) = .ok (some x) ↔
      ∃ v ∈ v?, read v = .ok x := by
  cases v? with
  | none => simp
  | some v => cases result : read v <;> simp [Except.map, result]

theorem takes_iff {v? : Option Value} :
    (∃ x?, (match v? with
      | none => .ok none
      | some v => (read v).map some : Except Error (Option α)) = .ok x? ∧ x = x?.getD d) ↔
      Takes read d v? x := by
  cases v? with
  | none => simp [Takes]
  | some v => cases result : read v <;> simp [Takes, Except.map, result, eq_comm]

/-! ### Sections -/

theorem Section.field_eq_ok (key name : String) (position : Nat)
    (read : String → Value → Except Error α) (es : List (String × Value)) :
    (Section.mk key (.inl es)).field position name read = .ok (some x) ↔
      ∃ v ∈ es.lookup name, read (key ++ "." ++ name) v = .ok x :=
  readAny_eq_ok

/-- A field with a default is what it takes from its value. -/
theorem Section.takes_iff (key name : String) (position : Nat)
    (read : String → Value → Except Error α) (es : List (String × Value)) :
    (∃ x?, (Section.mk key (.inl es)).field position name read = .ok x? ∧ x = x?.getD d) ↔
      Takes (read (key ++ "." ++ name)) d (es.lookup name) x :=
  Config.takes_iff

variable {o : Option String}

theorem RedisSettings.read_table_iff {s : RedisSettings} :
    RedisSettings.read (.table o es) = .ok s ↔
      ∃ v ∈ es.lookup "url", v.readText "redis.url" = .ok s.url := by
  have url := Section.field_eq_ok (x := s.url) "redis" "url" 0 Value.readText es
  simp only [RedisSettings.read, Section.ofValue, bind_eq_ok]
  constructor
  · rintro ⟨_, ⟨⟩, url?, field, result⟩
    cases url? with
    | none => cases result
    | some =>
        cases result
        exact url.mp field
  · intro given
    exact ⟨_, rfl, _, url.mpr given, rfl⟩

theorem QueueSettings.read_table_iff {s : QueueSettings} :
    QueueSettings.read (.table o es) = .ok s ↔
      (∃ v ∈ es.lookup "name", v.readText "queue.name" = .ok s.name) ∧
      Takes (Value.readWord "queue.workers") 10 (es.lookup "workers") s.workers ∧
      Takes (Value.readWord "queue.buffer_size") 100 (es.lookup "buffer_size") s.bufferSize ∧
      Takes (Value.readWord "queue.execution_timeout_secs") 30
        (es.lookup "execution_timeout_secs") s.executionTimeoutSeconds ∧
      Takes (Value.readWord "queue.poll_interval_ms") 1000 (es.lookup "poll_interval_ms")
        s.pollIntervalMillis := by
  have name := Section.field_eq_ok (x := s.name) "queue" "name" 0 Value.readText es
  have word {d n : Nat} (field : String) (position : Nat) :=
    Section.takes_iff (d := d) (x := n) "queue" field position Value.readWord es
  simp only [QueueSettings.read, Section.ofValue, bind_eq_ok]
  constructor
  · rintro ⟨_, ⟨⟩, name?, hn, workers?, hw, buffer?, hb, timeout?, ht, poll?, hp, result⟩
    cases name? with
    | none => cases result
    | some =>
        cases result
        exact ⟨name.mp hn, (word "workers" 1).mp ⟨_, hw, rfl⟩,
          (word "buffer_size" 2).mp ⟨_, hb, rfl⟩,
          (word "execution_timeout_secs" 3).mp ⟨_, ht, rfl⟩,
          (word "poll_interval_ms" 4).mp ⟨_, hp, rfl⟩⟩
  · rintro ⟨given, workers, buffer, timeout, poll⟩
    obtain ⟨workers?, hw, workers⟩ := (word "workers" 1).mpr workers
    obtain ⟨buffer?, hb, buffer⟩ := (word "buffer_size" 2).mpr buffer
    obtain ⟨timeout?, ht, timeout⟩ := (word "execution_timeout_secs" 3).mpr timeout
    obtain ⟨poll?, hp, poll⟩ := (word "poll_interval_ms" 4).mpr poll
    refine ⟨_, rfl, _, name.mpr given, _, hw, _, hb, _, ht, _, hp, ?_⟩
    dsimp only
    rw [← workers, ← buffer, ← timeout, ← poll]
    rfl

theorem RecoverySettings.read_table_iff {s : RecoverySettings} :
    RecoverySettings.read (.table o es) = .ok s ↔
      Takes (Value.readTruth "recovery.enabled") true (es.lookup "enabled") s.enabled ∧
      Takes (Value.readWord "recovery.interval_secs") 60 (es.lookup "interval_secs")
        s.intervalSeconds ∧
      Takes (Value.readWord "recovery.max_age_secs") 300 (es.lookup "max_age_secs")
        s.maxAgeSeconds := by
  have truth := Section.takes_iff (d := true) (x := s.enabled) "recovery" "enabled" 0
    Value.readTruth es
  have word {d n : Nat} (field : String) (position : Nat) :=
    Section.takes_iff (d := d) (x := n) "recovery" field position Value.readWord es
  simp only [RecoverySettings.read, Section.ofValue, bind_eq_ok]
  constructor
  · rintro ⟨_, ⟨⟩, enabled?, he, interval?, hi, maxAge?, hm, ⟨⟩⟩
    exact ⟨truth.mp ⟨_, he, rfl⟩, (word "interval_secs" 1).mp ⟨_, hi, rfl⟩,
      (word "max_age_secs" 2).mp ⟨_, hm, rfl⟩⟩
  · rintro ⟨enabled, interval, maxAge⟩
    obtain ⟨enabled?, he, enabled⟩ := truth.mpr enabled
    obtain ⟨interval?, hi, interval⟩ := (word "interval_secs" 1).mpr interval
    obtain ⟨maxAge?, hm, maxAge⟩ := (word "max_age_secs" 2).mpr maxAge
    refine ⟨_, rfl, _, he, _, hi, _, hm, ?_⟩
    rw [← enabled, ← interval, ← maxAge]
    rfl

theorem LoggingSettings.read_table_iff {s : LoggingSettings} :
    LoggingSettings.read (.table o es) = .ok s ↔
      Takes (Value.readText "logging.filter") "taskqueue=info" (es.lookup "filter") s.filter ∧
      Takes (Value.readTruth "logging.json") false (es.lookup "json") s.json := by
  have text := Section.takes_iff (d := "taskqueue=info") (x := s.filter) "logging" "filter" 0
    Value.readText es
  have truth := Section.takes_iff (d := false) (x := s.json) "logging" "json" 1
    Value.readTruth es
  simp only [LoggingSettings.read, Section.ofValue, bind_eq_ok]
  constructor
  · rintro ⟨_, ⟨⟩, filter?, hf, json?, hj, ⟨⟩⟩
    exact ⟨text.mp ⟨_, hf, rfl⟩, truth.mp ⟨_, hj, rfl⟩⟩
  · rintro ⟨filter, json⟩
    obtain ⟨filter?, hf, filter⟩ := text.mpr filter
    obtain ⟨json?, hj, json⟩ := truth.mpr json
    refine ⟨_, rfl, _, hf, _, hj, ?_⟩
    rw [← filter, ← json]
    rfl

/-! ### All sections -/

/-- A section that is missing is read as an empty one. -/
theorem takes_section_iff (read : Value → Except Error α) (root : Value) (sec : String)
    (empty : read .emptyTable = .ok d) :
    Takes read d (root.get? sec) x ↔ read (root.branch sec) = .ok x := by
  rw [Value.branch]
  cases root.get? sec with
  | none => simp [Takes, empty, eq_comm]
  | some v => exact Iff.rfl

/-- So is one that has to be there, but then it cannot be read. -/
theorem section_iff (read : Value → Except Error α) (root : Value) (sec : String)
    (empty : ∀ x, read .emptyTable ≠ .ok x) :
    (∃ v ∈ root.get? sec, read v = .ok x) ↔ read (root.branch sec) = .ok x := by
  rw [Value.branch]
  cases root.get? sec with
  | none => simp [empty]
  | some v => simp

theorem Settings.read_iff {root : Value} {s : Settings} :
    Settings.read root = .ok s ↔
      RedisSettings.read (root.branch "redis") = .ok s.redis ∧
      QueueSettings.read (root.branch "queue") = .ok s.queue ∧
      RecoverySettings.read (root.branch "recovery") = .ok s.recovery ∧
      LoggingSettings.read (root.branch "logging") = .ok s.logging := by
  rw [← section_iff RedisSettings.read root "redis" (fun _ h => by cases h),
    ← section_iff QueueSettings.read root "queue" (fun _ h => by cases h),
    ← takes_section_iff (d := {}) RecoverySettings.read root "recovery" rfl,
    ← takes_section_iff (d := {}) LoggingSettings.read root "logging" rfl]
  simp only [Settings.read, bind_eq_ok]
  constructor
  · rintro ⟨redis?, hr, queue?, hq, recovery?, hv, logging?, hl, result⟩
    cases redis? with
    | none => cases result
    | some =>
        cases queue? with
        | none => cases result
        | some =>
            cases result
            exact ⟨readAny_eq_ok.mp hr, readAny_eq_ok.mp hq, takes_iff.mp ⟨_, hv, rfl⟩,
              takes_iff.mp ⟨_, hl, rfl⟩⟩
  · rintro ⟨redis, queue, recovery, logging⟩
    obtain ⟨recovery?, hv, recovery⟩ := takes_iff.mpr recovery
    obtain ⟨logging?, hl, logging⟩ := takes_iff.mpr logging
    refine ⟨_, readAny_eq_ok.mpr redis, _, readAny_eq_ok.mpr queue, _, hv, _, hl, ?_⟩
    dsimp only
    rw [← recovery, ← logging]
    rfl

end ReliableQueue.Config
