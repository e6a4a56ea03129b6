import KnxTelegramStore.Sqlite.SchemaUpgrade
import Mathlib.Data.Set.Finite.Lemmas

/-!
What a start leaves that has run all of its passes (`settled_passes`): each
does what it is there for, and none undoes what an earlier one has done.
-/
namespace KnxTelegramStore.Sqlite
open EventMachine

variable {host : Host} {db db' db'' : Database} {statement : Statement} {statements : List Statement}
variable {rows rows' : List (Row Cells)}

/-! ## The later passes -/

/-- What they leave of an upgrade, and what they only set. -/
structure Database.Later (db db' : Database) : Prop where
  columns : db'.file.columns = db.file.columns
  ids : db'.rows.map Row.ids = db.rows.map Row.ids
  nullsRecovered : db'.file.nullsRecovered = db.file.nullsRecovered
  dataUnwrapped : db'.file.dataUnwrapped = db.file.dataUnwrapped
  lastGa : db.lastGa.isSome → db'.lastGa.isSome
  timestampsInteger : db.timestampsInteger = true → db'.timestampsInteger = true
  timestampsUtc : db.timestampsUtc = true → db'.timestampsUtc = true

theorem Database.Later.refl (db : Database) : db.Later db := ⟨rfl, rfl, rfl, rfl, id, id, id⟩

theorem Database.Later.trans (first : db.Later db') (second : db'.Later db'') : db.Later db'' where
  columns := second.columns.trans first.columns
  ids := second.ids.trans first.ids
  nullsRecovered := second.nullsRecovered.trans first.nullsRecovered
  dataUnwrapped := second.dataUnwrapped.trans first.dataUnwrapped
  lastGa present := second.lastGa (first.lastGa present)
  timestampsInteger set := second.timestampsInteger (first.timestampsInteger set)
  timestampsUtc set := second.timestampsUtc (first.timestampsUtc set)

theorem Database.Later.rows_nil (later : db.Later db') (empty : db.rows = []) : db'.rows = [] := by
  have ids := later.ids
  rw [empty] at ids
  exact List.map_eq_nil_iff.mp ids

theorem Database.Normalized.later (normalized : db.Normalized) (later : db.Later db') : db'.Normalized where
  columns := later.columns ▸ normalized.columns
  destinations := destinationsHeld_of_ids later.ids normalized.destinations
  nullsRecovered := later.nullsRecovered.trans normalized.nullsRecovered
  dataUnwrapped := later.dataUnwrapped.trans normalized.dataUnwrapped
  lastGa := later.lastGa normalized.lastGa

/-- A statement on an index. -/
def Statement.OnIndex : Statement → Prop
  | .createIndex _ | .dropIndex _ => True
  | _ => False

/-- What a statement does to the indexes. -/
def indexesAfter (indexes : List String) : Statement → List String
  | .createIndex name => indexes ++ [name]
  | .dropIndex name => indexes.filter (· ≠ name)
  | _ => indexes

def File.withIndexes {α : Type} (f : File α) (change : List String → List String) : File α :=
  { f with telegrams := f.telegrams.map fun table => { table with indexes := change table.indexes } }

theorem execute_onIndex (on : statement.OnIndex) (taken : db.execute host statement = some db') :
    db' = { db with
      file := db.file.withIndexes (indexesAfter · statement)
      statistics := db'.statistics
      rebuilt := db.rebuilt ++ statement.rebuilt } := by
  obtain ⟨file, done, rfl⟩ := Option.map_eq_some_iff.mp taken
  obtain ⟨middle, executed, same⟩ := Option.map_eq_some_iff.mp done
  cases statement with
  | createIndex name =>
    obtain ⟨table, held, executed⟩ := Option.bind_eq_some_iff.mp executed
    split at executed
    · cases executed
    · cases executed
      subst same
      simp [File.withIndexes, indexesAfter, held]
  | dropIndex name =>
    cases executed
    subst same
    rfl
  | _ => exact on.elim

theorem run_onIndex (on : ∀ statement ∈ statements, statement.OnIndex)
    (ran : run (Database.execute host) db statements = some db') :
    db' = { db with
      file := db.file.withIndexes fun indexes => statements.foldl indexesAfter indexes
      statistics := db'.statistics
      rebuilt := db.rebuilt ++ statements.flatMap Statement.rebuilt } := by
  induction statements generalizing db with
  | nil =>
    cases ran
    simp [File.withIndexes]
  | cons statement rest ih =>
    obtain ⟨next, taken, ran⟩ := run_cons.mp ran
    have first := execute_onIndex (on statement List.mem_cons_self) taken
    have others := ih (fun other mem => on other (List.mem_cons_of_mem _ mem)) ran
    rw [first] at others
    rw [others]
    simp [File.withIndexes, Function.comp_def]

@[simp] theorem columns_withIndexes (f : File Cells) (change : List String → List String) :
    (f.withIndexes change).columns = f.columns := by
  simp [File.columns, File.withIndexes, Function.comp_def]

@[simp] theorem rows_withIndexes (f : File Cells) (change : List String → List String) :
    (f.withIndexes change).rows = f.rows := by
  simp [File.rows, File.withIndexes, Function.comp_def]

theorem later_onIndex (on : ∀ statement ∈ statements, statement.OnIndex)
    (ran : run (Database.execute host) db statements = some db') : db.Later db' := by
  rw [run_onIndex on ran]
  exact ⟨columns_withIndexes _ _, congrArg (List.map Row.ids) (rows_withIndexes _ _), rfl, rfl, id, id, id⟩

theorem ids_convertTableToIntegers (rows : List (Row Cells)) :
    (convertTableToIntegers rows).map Row.ids = rows.map Row.ids := by
  have batch (low high : ℕ) (rows : List (Row Cells)) :
      (convertRowsToIntegers low high rows).map Row.ids = rows.map Row.ids := by
    rw [convertRowsToIntegers, List.map_map]
    refine List.map_congr_left fun row _ => ?_
    show Row.ids (ite _ _ _) = _
    split <;> rfl
  have all (batches : List ℕ) (rows : List (Row Cells)) :
      (batches.foldl (fun rows index => convertRowsToIntegers (index * conversionBatchRows)
        (index * conversionBatchRows + conversionBatchRows) rows) rows).map Row.ids = rows.map Row.ids := by
    induction batches generalizing rows with
    | nil => rfl
    | cons index batches ih => rw [List.foldl_cons, ih, batch]
  exact all _ rows

theorem later_convertTimestamps (done : db.convertTimestampsToIntegers host = some db') :
    db.Later db' ∧ db'.timestampsInteger = true := by
  simp only [Database.convertTimestampsToIntegers] at done
  split at done
  · rename_i set
    cases done
    exact ⟨⟨rfl, rfl, rfl, rfl, id, id, id⟩, set⟩
  · split at done
    · split at done
      · obtain ⟨dropped, taken, rfl⟩ := Option.map_eq_some_iff.mp done
        have ran : run (Database.execute host) db [.dropIndex statisticsCanary] = some dropped :=
          run_cons.mpr ⟨dropped, taken, rfl⟩
        have later : db.Later dropped := later_onIndex (by simp [Statement.OnIndex]) ran
        refine ⟨⟨?_, ?_, later.nullsRecovered, later.dataUnwrapped, ?_, fun _ => rfl, later.timestampsUtc⟩, rfl⟩
        · exact (columns_withRows _ _).trans later.columns
        · exact (ids_withRows (ids_convertTableToIntegers _)).trans later.ids
        · intro present
          simpa using later.lastGa present
      · cases done
    · cases done
      exact ⟨⟨rfl, rfl, rfl, rfl, id, fun _ => rfl, id⟩, rfl⟩

/-- The statements of `ensure_indexes`. -/
def ensuring (indexes : List String) : List Statement :=
  (modelIndexes.filter (· ∉ indexes)).map .createIndex ++ obsoleteIndexes.map .dropIndex

theorem ensuring_onIndex (indexes : List String) : ∀ statement ∈ ensuring indexes, statement.OnIndex := by
  intro statement mem
  rcases List.mem_append.mp mem with creating | dropping
  · obtain ⟨name, _, rfl⟩ := List.mem_map.mp creating
    trivial
  · obtain ⟨name, _, rfl⟩ := List.mem_map.mp dropping
    trivial

theorem mem_foldl_ensuring (indexes : List String) {name : String} (own : name ∈ modelIndexes) :
    name ∈ (ensuring indexes).foldl indexesAfter indexes := by
  have creates (missing before : List String) :
      (missing.map Statement.createIndex).foldl indexesAfter before = before ++ missing := by
    induction missing generalizing before with
    | nil => simp
    | cons first missing ih =>
      rw [List.map_cons, List.foldl_cons, ih]
      exact List.append_assoc before [first] missing
  have declared : ∀ name ∈ modelIndexes, name ∉ obsoleteIndexes := by decide
  have current := declared name own
  simp only [obsoleteIndexes, List.mem_cons, List.not_mem_nil, or_false, not_or] at current
  rw [ensuring, List.foldl_append, creates]
  simp only [obsoleteIndexes, List.map_cons, List.map_nil, List.foldl_cons, List.foldl_nil, indexesAfter,
    List.mem_filter]
  refine ⟨⟨?_, decide_eq_true current.1⟩, decide_eq_true current.2⟩
  by_cases held : name ∈ indexes
  · exact List.mem_append_left _ held
  · exact List.mem_append_right _ (List.mem_filter.mpr ⟨own, decide_eq_true held⟩)

/-- Every index of the model is there when they have been ensured. -/
theorem later_ensureIndexes (done : db.ensureIndexes host = some db') :
    db.Later db' ∧ ∀ name ∈ modelIndexes, name ∈ db'.file.indexes := by
  obtain ⟨table, held, done⟩ := Option.bind_eq_some_iff.mp done
  obtain ⟨_, ran⟩ := Option.ite_none_right_eq_some.mp done
  refine ⟨later_onIndex (ensuring_onIndex table.indexes) ran, fun name own => ?_⟩
  rw [run_onIndex (ensuring_onIndex table.indexes) ran]
  simpa [File.indexes, File.withIndexes, held] using mem_foldl_ensuring table.indexes own

/-- What the passes behind the indexes leave of them, and what they only set. -/
structure Database.Behind (db db' : Database) : Prop extends db.Later db' where
  indexes : db'.file.indexes = db.file.indexes
  statistics : db.statistics = true → db'.statistics = true

theorem Database.Behind.refl (db : Database) : db.Behind db := ⟨.refl db, rfl, id⟩

theorem Database.Behind.trans (first : db.Behind db') (second : db'.Behind db'') : db.Behind db'' :=
  ⟨first.toLater.trans second.toLater, second.indexes.trans first.indexes, second.statistics ∘ first.statistics⟩

theorem ids_shiftRows {zone : Zone} {inScope : Cells → Bool} (done : shiftRows zone inScope rows = some rows') :
    rows'.map Row.ids = rows.map Row.ids := by
  obtain ⟨timestamps, _, done⟩ := Option.bind_eq_some_iff.mp done
  obtain ⟨shift, _, done⟩ := Option.bind_eq_some_iff.mp done
  cases done
  simp [Row.update, Function.comp_def]

/-- What a conversion to UTC sets, if there is one to make. -/
theorem migrate_some {zone : Zone} (done : db.migrateTimestampsToUtc host zone = some db') :
    (db.timestampsUtc = true ∧ db' = db) ∨ ∃ telegrams lastGa,
      shiftRows zone (db.legacyRowScopes zone).1 db.rows = some telegrams ∧
      shiftRows zone (db.legacyRowScopes zone).2 db.summaries = some lastGa ∧
      db' = { db with
        file := db.file.withRows telegrams
        lastGa := db.lastGa.map fun _ => lastGa
        timestampsUtc := true } := by
  unfold Database.migrateTimestampsToUtc at done
  split at done
  · rename_i set
    cases done
    exact .inl ⟨set, rfl⟩
  · split at done
    · obtain ⟨telegrams, made, done⟩ := Option.bind_eq_some_iff.mp done
      obtain ⟨lastGa, made', done⟩ := Option.bind_eq_some_iff.mp done
      cases done
      exact .inr ⟨telegrams, lastGa, made, made', rfl⟩
    · cases done

theorem behind_migrate {zone : Zone} (done : db.migrateTimestampsToUtc host zone = some db') :
    db.Behind db' ∧ db'.timestampsUtc = true ∧ db'.vacuumPending = db.vacuumPending := by
  obtain ⟨set, rfl⟩ | ⟨telegrams, lastGa, made, _, rfl⟩ := migrate_some done
  · exact ⟨.refl _, set, rfl⟩
  · refine ⟨⟨⟨columns_withRows _ _, ids_withRows (ids_shiftRows made), rfl, rfl, fun present => ?_, id, fun _ => rfl⟩,
      indexes_withRows _ _, id⟩, rfl, rfl⟩
    simpa using present

theorem behind_convertLegacy (done : db.convertLegacy host = some db') :
    db.Behind db' ∧ (host.legacyTimestampTimezone.isSome → db'.timestampsUtc = true) ∧
      db'.vacuumPending = db.vacuumPending := by
  unfold Database.convertLegacy at done
  split at done
  · rename_i unnamed
    cases done
    refine ⟨.refl _, fun named => ?_, rfl⟩
    rw [unnamed] at named
    cases named
  · obtain ⟨behind, set, pending⟩ := behind_migrate done
    exact ⟨behind, fun _ => set, pending⟩

theorem behind_collectMissingStatistics (indexes : ∀ name ∈ modelIndexes, name ∈ db.file.indexes) :
    db.Behind db.collectMissingStatistics ∧
      (db.collectMissingStatistics.statistics = true ∨ db.collectMissingStatistics.rows = []) := by
  have canary : statisticsCanary ∈ db.file.indexes := indexes _ (by decide)
  unfold Database.collectMissingStatistics
  split
  · rename_i idle
    refine ⟨.refl db, ?_⟩
    simpa [Database.hasRows] using idle
  · exact ⟨⟨⟨rfl, rfl, rfl, rfl, id, id, id⟩, rfl, fun _ => decide_eq_true canary⟩, .inl (decide_eq_true canary)⟩

theorem behind_classify (host : Host) (db : Database) : db.Behind (db.classifyTimestampConvention host) := by
  unfold Database.classifyTimestampConvention
  split
  · exact .refl db
  · split
    · exact ⟨⟨rfl, rfl, rfl, rfl, id, id, fun _ => rfl⟩, rfl, id⟩
    · split
      · exact ⟨⟨rfl, rfl, rfl, rfl, id, id, id⟩, rfl, id⟩
      · exact .refl db

theorem behind_vacuumWhenRoom (host : Host) (db : Database) :
    db.Behind (db.vacuumWhenRoom host) ∧ ((db.vacuumWhenRoom host).vacuumPending = true → host.vacuumFits = false) := by
  unfold Database.vacuumWhenRoom
  split
  · split
    · exact ⟨⟨⟨rfl, rfl, rfl, rfl, id, id, id⟩, rfl, id⟩, nofun⟩
    · rename_i full
      exact ⟨⟨⟨rfl, rfl, rfl, rfl, id, id, id⟩, rfl, id⟩, fun _ => Bool.eq_false_iff.mpr full⟩
  · rename_i idle
    refine ⟨.refl db, fun pending => absurd ?_ idle⟩
    rw [pending, Bool.or_true]

/-! ## The last values -/

/-- The latest row of all is a candidate of its destination. -/
theorem exists_latest (destinations : DestinationsHeld rows) (nonempty : rows ≠ []) : ∃ row, row ∈ candidates rows := by
  obtain ⟨row, mem, latest⟩ := Set.exists_max_image {row | row ∈ rows} (fun row => row.content.timestamp)
    rows.finite_toSet (List.exists_mem_of_ne_nil rows nonempty)
  refine ⟨row, List.mem_filter.mpr ⟨mem, ?_⟩⟩
  rw [Bool.and_eq_true]
  refine ⟨destinations row mem, List.all_eq_true.mpr fun other own => ?_⟩
  rw [decide_eq_true (latest other own), Bool.or_true]

theorem ranked_ne_nil (destinations : DestinationsHeld rows) (nonempty : rows ≠ []) : ranked host rows ≠ [] := by
  obtain ⟨row, candidate⟩ := exists_latest destinations nonempty
  have mem := List.mem_of_mem_filter candidate
  obtain ⟨destinationId, own⟩ := Option.isSome_iff_exists.mp (destinations row mem)
  have among : row ∈ (candidates rows).filter fun row => row.ids .destination = some destinationId :=
    List.mem_filter.mpr ⟨candidate, decide_eq_true own⟩
  obtain ⟨first, found⟩ := Option.isSome_iff_exists.mp (host.first_isSome (List.ne_nil_of_mem among))
  refine List.ne_nil_of_mem (List.mem_filterMap.mpr ⟨destinationId, ?_, found⟩)
  exact List.mem_dedup.mpr (List.mem_filterMap.mpr ⟨row, mem, own⟩)

theorem insertSummary_ne_nil (summaries : List (Row Cells)) (row : Row Cells) : insertSummary summaries row ≠ [] := by
  unfold insertSummary
  split
  · rename_i known
    obtain ⟨summary, mem, _⟩ := List.any_eq_true.mp known
    exact List.ne_nil_of_mem mem
  · exact List.append_ne_nil_of_right_ne_nil _ (List.cons_ne_nil _ _)

theorem foldl_insertSummary_ne_nil {found summaries : List (Row Cells)} (some_ : found ≠ []) :
    found.foldl insertSummary summaries ≠ [] := by
  have keeps (found summaries : List (Row Cells)) (held : summaries ≠ []) :
    found.foldl insertSummary summaries ≠ [] := by
    induction found generalizing summaries with
    | nil => exact held
    | cons row found ih => exact ih (insertSummary summaries row) (insertSummary_ne_nil summaries row)
  cases found with
  | nil => exact absurd rfl some_
  | cons row found => exact keeps found (insertSummary summaries row) (insertSummary_ne_nil summaries row)

/-- What a reconcile sets, if there is one to make. -/
theorem reconcile_some (done : db.reconcile host = some db') :
    (db.hasSummaries = true ∧ db.reconciled = true ∧ db' = db) ∨ db' = { db with
      lastGa := some ((ranked host db.rows).foldl insertSummary
        (db.summaries.filter fun row => !newerTelegram db.rows row))
      reconciled := true } := by
  unfold Database.reconcile at done
  split at done
  · rename_i idle
    cases done
    exact .inl ⟨(Bool.and_eq_true_iff.mp idle).1, (Bool.and_eq_true_iff.mp idle).2, rfl⟩
  · obtain ⟨table, held, done⟩ := Option.bind_eq_some_iff.mp done
    have rows : db.rows = table.rows := by simp [Database.rows, File.rows, held]
    obtain ⟨_, same⟩ := Option.ite_none_right_eq_some.mp done
    cases same
    exact .inr (by rw [rows])

theorem behind_reconcile (destinations : DestinationsHeld db.rows) (done : db.reconcile host = some db') :
    db.Behind db' ∧ db'.vacuumPending = db.vacuumPending ∧ db'.reconciled = true ∧
      (db'.rows = [] ∨ db'.summaries ≠ []) := by
  obtain ⟨held, set, rfl⟩ | rfl := reconcile_some done
  · refine ⟨.refl _, rfl, set, .inr ?_⟩
    simpa [Database.hasSummaries] using held
  · refine ⟨⟨⟨rfl, rfl, rfl, rfl, fun _ => rfl, id, id⟩, rfl, id⟩, rfl, rfl, ?_⟩
    by_cases empty : db.rows = []
    · exact .inl empty
    · exact .inr (foldl_insertSummary_ne_nil (ranked_ne_nil destinations empty))

/-! ## After the passes -/

/-- What the probe does not find. -/
structure Database.Settled (host : Host) (db : Database) : Prop where
  normalized : db.Normalized
  timestampsInteger : db.timestampsInteger = true
  indexes : ∀ name ∈ modelIndexes, name ∈ db.file.indexes
  statistics : db.statistics = true ∨ db.rows = []
  vacuum : db.vacuumPending = true → host.vacuumFits = false
  utc : host.legacyTimestampTimezone.isSome → db.timestampsUtc = true
  reconciled : db.reconciled = true
  summaries : db.rows = [] ∨ db.summaries ≠ []

/-- Each pass does what it is there for, and no later one undoes it. -/
theorem settled_passes (declared : db.Declared) (returned : db.initializeStore host = some db') : db'.Settled host := by
  obtain ⟨db₁, upgraded, ran⟩ := run_cons.mp returned
  obtain ⟨db₂, converted, ran⟩ := run_cons.mp ran
  obtain ⟨db₃, indexed, ran⟩ := run_cons.mp ran
  obtain ⟨db₄, collected, ran⟩ := run_cons.mp ran
  obtain ⟨db₅, classified, ran⟩ := run_cons.mp ran
  obtain ⟨db₆, compacted, ran⟩ := run_cons.mp ran
  obtain ⟨db₇, migrated, ran⟩ := run_cons.mp ran
  obtain ⟨db₈, reconciled, ran⟩ := run_cons.mp ran
  cases ran
  have declared' : Database.Declared { db with converted := false } := declared
  have normalized : db₁.Normalized := normalized_upgradeSchema declared' upgraded
  obtain ⟨later₂, integers⟩ := later_convertTimestamps converted
  obtain ⟨later₃, indexes⟩ := later_ensureIndexes indexed
  obtain ⟨behind₄, statistics⟩ := behind_collectMissingStatistics indexes
  cases collected
  have behind₅ := behind_classify host db₃.collectMissingStatistics
  cases classified
  obtain ⟨behind₆, vacuum⟩ := behind_vacuumWhenRoom host (db₃.collectMissingStatistics.classifyTimestampConvention host)
  cases compacted
  obtain ⟨behind₇, utc, pending₇⟩ := behind_convertLegacy migrated
  have from₄ := behind₅.trans (behind₆.trans behind₇)
  have upTo₇ := behind₄.trans from₄
  have normalized₃ := (normalized.later later₂).later later₃
  obtain ⟨behind₈, pending₈, set, summaries⟩ :=
    behind_reconcile (normalized₃.later upTo₇.toLater).destinations reconciled
  have upTo₈ := upTo₇.trans behind₈
  exact {
    normalized := normalized₃.later upTo₈.toLater
    timestampsInteger := upTo₈.timestampsInteger (later₃.timestampsInteger integers)
    indexes := fun name own => upTo₈.indexes ▸ indexes name own
    statistics := statistics.imp (from₄.trans behind₈).statistics (from₄.trans behind₈).toLater.rows_nil
    vacuum := fun pending => vacuum (pending₇ ▸ pending₈ ▸ pending)
    utc := fun named => behind₈.timestampsUtc (utc named)
    reconciled := set
    summaries }

end KnxTelegramStore.Sqlite
