import KnxTelegramStore.Sqlite.StartupPasses

/-!
The probe and the passes agree (`needs_migration_agrees`): once the passes
have run the probe finds no work, and where it finds none no pass touches a
row or rebuilds anything.
-/
namespace KnxTelegramStore.Sqlite
open EventMachine

variable {host : Host} {db db' : Database} {rows : List (Row Cells)}

/-! ## The probe -/

/-- Nothing for any pass to do. -/
structure Database.Idle (host : Host) (db : Database) : Prop where
  columns : ∃ columns, db.file.columns = some columns ∧ Modern columns
  nulls : db.file.nullsRecovered = true ∨ ∀ row ∈ db.rows, row.content.nullToRecover = false
  wrapped : db.file.dataUnwrapped = true ∨ ∀ row ∈ db.rows, row.content.data.selected = false
  integers : db.timestampsInteger = true ∨ db.rows = [] ∧ db.summaries = []
  indexes : ∀ name ∈ modelIndexes, name ∈ db.file.indexes
  statistics : db.statistics = true ∨ db.rows.length < statisticsReportRows
  vacuum : db.vacuumPending = true → host.vacuumFits = false
  utc : host.legacyTimestampTimezone.isSome → db.timestampsUtc = true ∨ db.rows = [] ∧ db.summaries = []
  reconciled : db.rows = [] ∨ db.reconciled = true ∧ db.summaries ≠ []

theorem ite_true_eq_false {c : Prop} [Decidable c] {rest : Option Bool} :
    (if c then some true else rest) = some false ↔ ¬ c ∧ rest = some false := by
  by_cases holds : c <;> simp [holds]

/-- What the backend-independent part of the probe looks for. -/
theorem pendingStartupWork_false (present : db.lastGa.isSome) :
    db.pendingStartupWork = some false ↔
      (∀ name ∈ modelIndexes, name ∈ db.file.indexes) ∧ (db.rows = [] ∨ db.reconciled = true ∧ db.summaries ≠ []) := by
  obtain ⟨lastGa, present⟩ := Option.isSome_iff_exists.mp present
  have summaries : db.summaries = lastGa := by simp [Database.summaries, present]
  have indexes : (modelIndexes.any (· ∉ db.file.indexes)) = true ↔ ¬ ∀ name ∈ modelIndexes, name ∈ db.file.indexes := by
    simp
  simp only [Database.pendingStartupWork, present, Option.pure_def, Option.bind_eq_bind, Option.bind_some,
    ite_true_eq_false, indexes, not_not, Database.hasRows, summaries]
  refine and_congr_right fun _ => ?_
  cases db.reconciled <;> cases db.rows <;> cases lastGa <;> simp

/-- The probe looks for the work of every pass. -/
theorem needsMigration_false (held : db.file.telegrams.isSome) (present : db.lastGa.isSome) :
    db.needsMigration host = some false ↔ db.Idle host := by
  obtain ⟨table, held⟩ := Option.isSome_iff_exists.mp held
  have pending := pendingStartupWork_false present
  obtain ⟨lastGa, present⟩ := Option.isSome_iff_exists.mp present
  have rows : db.rows = table.rows := by simp [Database.rows, File.rows, held]
  have columns : db.file.columns = some table.columns := by simp [File.columns, held]
  have summaries : db.summaries = lastGa := by simp [Database.summaries, present]
  have empty : (!db.hasRows && !db.hasSummaries) = true ↔ db.rows = [] ∧ db.summaries = [] := by
    simp [Database.hasRows, Database.hasSummaries]
  have unshifted (rest : Option Bool) :
      (if (host.legacyTimestampTimezone.isSome && !db.timestampsUtc) = true then
        if db.hasRows = true then some true else if (!lastGa.isEmpty) = true then some true else rest
      else rest) = some false ↔
      (host.legacyTimestampTimezone.isSome → db.timestampsUtc = true ∨ db.rows = [] ∧ db.summaries = []) ∧
        rest = some false := by
    cases host.legacyTimestampTimezone <;> cases db.timestampsUtc <;>
      cases noRows : db.rows <;> cases lastGa <;> simp [Database.hasRows, noRows, summaries]
  simp only [Database.needsMigration, held, present, Option.pure_def, Option.bind_eq_bind, Option.bind_some,
    ite_true_eq_false, unshifted, pending]
  constructor
  · rintro ⟨statistics, integers, vacuum, legacy, expected, nulls, wrapped, utc, indexes, reconciled⟩
    refine ⟨⟨table.columns, columns, ?_, ?_⟩, ?_, ?_, ?_, indexes, ?_, ?_, utc, reconciled⟩
    · simpa using legacy
    · simpa using expected
    · simpa [rows, or_iff_not_imp_left] using nulls
    · simpa [rows, or_iff_not_imp_left] using wrapped
    · simpa [or_iff_not_imp_left, ← empty] using integers
    · simpa [rows, or_iff_not_imp_left] using statistics
    · simpa using vacuum
  · rintro ⟨⟨_, same, legacy, expected⟩, nulls, wrapped, integers, indexes, statistics, vacuum, utc, reconciled⟩
    cases columns.symm.trans same
    refine ⟨?_, ?_, ?_, ?_, ?_, ?_, ?_, utc, indexes, reconciled⟩
    · simpa [rows, or_iff_not_imp_left] using statistics
    · simpa [or_iff_not_imp_left, ← empty] using integers
    · simpa using vacuum
    · simpa using legacy
    · simpa using expected
    · simpa [rows, or_iff_not_imp_left] using nulls
    · simpa [rows, or_iff_not_imp_left] using wrapped

theorem Database.Settled.idle {probe : Host} (settled : db.Settled host)
    (timezone : probe.legacyTimestampTimezone = host.legacyTimestampTimezone)
    (room : probe.vacuumFits = host.vacuumFits) :
    db.Idle probe where
  columns := settled.normalized.columns
  nulls := .inl settled.normalized.nullsRecovered
  wrapped := .inl settled.normalized.dataUnwrapped
  integers := .inl settled.timestampsInteger
  indexes := settled.indexes
  statistics := settled.statistics.imp_right fun empty => by simp [empty, statisticsReportRows]
  vacuum pending := room.trans (settled.vacuum pending)
  utc named := .inl (settled.utc (timezone ▸ named))
  reconciled := settled.summaries.imp_right fun held => ⟨settled.reconciled, held⟩

/-! ## Passes that find nothing to do -/

/-- All tables exist, no pass has anything to do, and none of the passes so
far has converted a timestamp. -/
structure Database.Quiet (host : Host) (db : Database) : Prop extends db.Idle host where
  lastGa : db.lastGa.isSome
  unconverted : db.converted = false

/-- The rows of both tables, and what has been rebuilt. -/
def Database.contents (db : Database) : List (Row Cells) × Option (List (Row Cells)) × List Rebuilt :=
  (db.rows, db.lastGa, db.rebuilt)

theorem update_eq_self {update : Cells → Cells} (same : ∀ row ∈ rows, update row.content = row.content) :
    rows.map (Row.update update) = rows := by
  have each : ∀ row ∈ rows, row.update update = row := fun row mem => by rw [Row.update, same row mem]
  rw [List.map_congr_left each, List.map_id']

theorem withRows_rows (f : File Cells) : f.withRows f.rows = f := by
  rcases f with ⟨_ | table, _⟩ <;> rfl

theorem upgradeSchema_modern {α : Type} {table : Table α} (modern : Modern table.columns) (nullsRecovered : Bool) :
    Sqlite.upgradeSchema table nullsRecovered = recoverNulls nullsRecovered table.columns := by
  have current : ¬ ∃ column ∈ table.columns, column ∈ legacyColumns := fun ⟨column, own, old⟩ => modern.1 column old own
  have normalized : Column.string .source ∉ table.columns := modern.1 _ (by decide)
  have complete : expectedColumns.filter (· ∉ table.columns) = [] :=
    List.filter_eq_nil_iff.mpr fun column expected absent => of_decide_eq_true absent (modern.2 column expected)
  simp only [Sqlite.upgradeSchema, if_neg current, if_neg normalized, complete, List.map_nil,
    List.append_nil, List.nil_append]

/-- The recovery of values, where there are none to recover. -/
theorem run_recoverNulls {columns : List Column} (idle : db.Idle host) (nullsRecovered : db.file.nullsRecovered = false)
    (ran : run (Database.execute host) db (recoverNulls false columns) = some db') :
    db' = { db with file := { db.file with nullsRecovered := true } } := by
  have unmatched : ∀ row ∈ db.rows, row.content.nullToRecover = false :=
    idle.nulls.resolve_left (by rw [nullsRecovered]; exact Bool.false_ne_true)
  obtain ⟨middle, recovering, ran⟩ := run_append.mp ran
  obtain ⟨next, setting, ran⟩ := run_cons.mp ran
  cases ran
  have same : middle = db := by
    split at recovering
    · obtain ⟨recovered, taken, ran⟩ := run_cons.mp recovering
      cases ran
      obtain ⟨file, done, rfl⟩ := Option.map_eq_some_iff.mp taken
      obtain ⟨after, executed, rfl⟩ := Option.map_eq_some_iff.mp done
      obtain ⟨_, _, rfl⟩ := Option.map_eq_some_iff.mp executed
      have kept : db.file.rows.map (Row.update (Cells.recovered host.castAsText)) = db.file.rows := by
        refine update_eq_self fun row mem => ?_
        unfold Cells.recovered
        split
        · rw [unmatched row mem, if_neg Bool.false_ne_true]
        · rfl
      simp only [kept, withRows_rows, Statement.rebuilt, List.append_nil]
    · cases recovering
      rfl
  rw [same] at setting
  cases setting
  simp [Statement.rebuilt]

/-- Nothing is created where all tables exist. -/
theorem createAll_present {table : Table Cells} (held : db.file.telegrams = some table) (present : db.lastGa.isSome) :
    db.execute host .createAll = some db := by
  obtain ⟨lastGa, present⟩ := Option.isSome_iff_exists.mp present
  rcases db with ⟨⟨_, _, _, _, _⟩, _, _, _, _, _, _, _, _, _, _⟩
  cases held
  cases present
  simp [Database.execute, executeCells, execute, Database.summaries, Statement.rebuilt]

theorem quiet_upgradeSchema (quiet : db.Quiet host) (done : db.upgradeSchema host = some db') :
    db' = { db with file := { db.file with nullsRecovered := true, dataUnwrapped := true } } := by
  obtain ⟨columns, same, modern⟩ := quiet.columns
  obtain ⟨table, held, rfl⟩ := Option.map_eq_some_iff.mp same
  have created : db.execute host .createAll = some db := createAll_present held quiet.lastGa
  simp only [Database.upgradeSchema, Option.bind_eq_bind, Option.bind_eq_some_iff] at done
  obtain ⟨_, creating, _, found, upgraded, upgrading, done⟩ := done
  cases created.symm.trans creating
  cases held.symm.trans found
  rw [upgradeSchema_modern modern] at upgrading
  have recovered : upgraded = { db with file := { db.file with nullsRecovered := true } } := by
    cases set : db.file.nullsRecovered with
    | true =>
      rw [set] at upgrading
      cases upgrading
      rw [← set]
    | false =>
      rw [set] at upgrading
      exact run_recoverNulls quiet.toIdle set upgrading
  subst recovered
  split at done
  · rename_i flagged
    cases done
    have flagged' : db.file.dataUnwrapped = true := flagged
    rw [← flagged']
  · rename_i unflagged
    cases done
    have unmatched := quiet.wrapped.resolve_left unflagged
    have kept : db.rows.map (Row.update (Cells.unwrapped host.real)) = db.rows := by
      refine update_eq_self fun row mem => ?_
      rw [Cells.unwrapped, unmatched row mem, Bool.false_and, if_neg Bool.false_ne_true]
    have same : (db.file.withRows (db.rows.map (Row.update (Cells.unwrapped host.real)))).telegrams =
      db.file.telegrams := by
      rw [kept]
      exact congrArg File.telegrams (withRows_rows db.file)
    exact congrArg (fun telegrams => { db with
      file := { db.file with telegrams, nullsRecovered := true, dataUnwrapped := true } }) same

theorem quiet_convertTimestamps (quiet : db.Quiet host) (done : db.convertTimestampsToIntegers host = some db') :
    db' = { db with timestampsInteger := true } := by
  have unconverted := quiet.unconverted
  unfold Database.convertTimestampsToIntegers at done
  split at done
  · rename_i set
    cases done
    rw [← set, ← unconverted]
  · rename_i unset
    obtain ⟨noRows, noSummaries⟩ := quiet.integers.resolve_left unset
    rw [noRows, noSummaries] at done
    cases done
    rw [← unconverted]

/-- The statistics are not those of an obsolete index. -/
theorem statistics_obsolete (ran : run (Database.execute host) db (obsoleteIndexes.map .dropIndex) = some db') :
    db'.statistics = db.statistics := by
  have obsolete : Along (Database.execute host)
    (fun _ statement => ∃ name ∈ obsoleteIndexes, statement = .dropIndex name) db
      (obsoleteIndexes.map .dropIndex) := by
    refine along_of_mem fun statement mem _ => ?_
    obtain ⟨name, own, rfl⟩ := List.mem_map.mp mem
    exact ⟨name, own, rfl⟩
  refine run_invariant (I := fun now : Database => now.statistics = db.statistics) ?_ rfl obsolete ran
  rintro now _ next same ⟨name, own, rfl⟩ taken
  obtain ⟨file, _, rfl⟩ := Option.map_eq_some_iff.mp taken
  have apart : ∀ name ∈ obsoleteIndexes, name ≠ statisticsCanary := by decide
  show (now.statistics && !(decide (name = statisticsCanary) && _)) = db.statistics
  rw [decide_eq_false (apart name own), Bool.false_and, Bool.not_false, Bool.and_true, same]

/-- Indexes that are there are not created again. -/
theorem quiet_ensureIndexes (quiet : db.Quiet host) (done : db.ensureIndexes host = some db') :
    db' = { db with file := db.file.withIndexes fun indexes => (ensuring indexes).foldl indexesAfter indexes } := by
  obtain ⟨table, held, done⟩ := Option.bind_eq_some_iff.mp done
  obtain ⟨_, ran⟩ := Option.ite_none_right_eq_some.mp done
  have complete : modelIndexes.filter (· ∉ table.indexes) = [] := by
    refine List.filter_eq_nil_iff.mpr fun name own absent => of_decide_eq_true absent ?_
    simpa [File.indexes, held] using quiet.indexes name own
  have drops : ensuring table.indexes = obsoleteIndexes.map .dropIndex := by
    rw [ensuring, complete, List.map_nil, List.nil_append]
  have same := run_onIndex (ensuring_onIndex table.indexes) ran
  have dropped : run (Database.execute host) db (ensuring table.indexes) = some db' := ran
  rw [drops] at dropped
  have statistics := statistics_obsolete dropped
  rw [statistics] at same
  rw [same, drops]
  simp [File.withIndexes, held, drops, obsoleteIndexes, Statement.rebuilt]

/-- With nothing converted and no room for a VACUUM that is due, none runs. -/
theorem quiet_vacuumWhenRoom (quiet : db.Quiet host) : db.vacuumWhenRoom host = db := by
  have unconverted := quiet.unconverted
  unfold Database.vacuumWhenRoom
  rw [unconverted, Bool.false_or]
  split
  · rename_i pending
    rw [quiet.vacuum pending, if_neg Bool.false_ne_true, ← unconverted, ← pending]
  · rfl

theorem shiftRows_nil {zone : Zone} {inScope : Cells → Bool} (done : shiftRows zone inScope [] = some rows) :
    rows = [] := by
  have ids := ids_shiftRows done
  exact List.map_eq_nil_iff.mp ids

theorem quiet_convertLegacy (quiet : db.Quiet host) (done : db.convertLegacy host = some db') :
    db' = { db with timestampsUtc := db'.timestampsUtc } := by
  unfold Database.convertLegacy at done
  split at done
  · cases done
    rfl
  · rename_i zone named
    by_cases set : db.timestampsUtc = true
    · rw [Database.migrateTimestampsToUtc, if_pos set] at done
      cases done
      rfl
    · obtain ⟨flagged, _⟩ | ⟨telegrams, lastGa, made, made', rfl⟩ := migrate_some done
      · exact absurd flagged set
      obtain ⟨noRows, noSummaries⟩ := (quiet.utc (by rw [named]; rfl)).resolve_left set
      rw [noRows] at made
      rw [noSummaries] at made'
      cases shiftRows_nil made
      cases shiftRows_nil made'
      obtain ⟨lastGa, present⟩ := Option.isSome_iff_exists.mp quiet.lastGa
      have empty : lastGa = [] := by simpa [Database.summaries, present] using noSummaries
      have same : db.file.withRows [] = db.file := by
        rw [← noRows]
        exact withRows_rows db.file
      simp only [same, present, empty, Option.map_some]

theorem quiet_reconcile (quiet : db.Quiet host) (done : db.reconcile host = some db') :
    db' = { db with reconciled := true } := by
  obtain noRows | ⟨set, held⟩ := quiet.reconciled
  · obtain ⟨_, set, rfl⟩ | rfl := reconcile_some done
    · rw [← set]
    · obtain ⟨lastGa, present⟩ := Option.isSome_iff_exists.mp quiet.lastGa
      have kept : db.summaries.filter (fun row => !newerTelegram db.rows row) = lastGa := by
        simp [noRows, newerTelegram, Database.summaries, present]
      rw [kept, noRows, present]
      rfl
  · have idle : (db.hasSummaries && db.reconciled) = true := by
      simp [Database.hasSummaries, held, set]
    rw [Database.reconcile, if_pos idle] at done
    cases done
    rw [← set]

theorem Database.Idle.withIndexes {change : List String → List String} (idle : db.Idle host)
    (indexes : ∀ name ∈ modelIndexes, name ∈ (db.file.withIndexes change).indexes) :
    Database.Idle host { db with file := db.file.withIndexes change } := by
  have rows : Database.rows { db with file := db.file.withIndexes change } = db.rows := rows_withIndexes db.file change
  constructor
  case columns => exact (columns_withIndexes db.file change).symm ▸ idle.columns
  case nulls => exact rows.symm ▸ idle.nulls
  case wrapped => exact rows.symm ▸ idle.wrapped
  case integers => exact rows.symm ▸ idle.integers
  case indexes => exact indexes
  case statistics => exact rows.symm ▸ idle.statistics
  case vacuum => exact idle.vacuum
  case utc => exact rows.symm ▸ idle.utc
  case reconciled => exact rows.symm ▸ idle.reconciled

/-- **A pass that finds nothing to do** leaves nothing to do, and rebuilds
nothing. -/
theorem Database.Quiet.pass (quiet : db.Quiet host) {pass : Pass} (done : db.pass host pass = some db') :
    db'.Quiet host ∧ db'.contents = db.contents := by
  cases pass with
  | upgradeSchema =>
    rw [quiet_upgradeSchema quiet done]
    exact ⟨⟨{ quiet.toIdle with nulls := .inl rfl, wrapped := .inl rfl }, quiet.lastGa, quiet.unconverted⟩, rfl⟩
  | convertTimestampsToIntegers =>
    rw [quiet_convertTimestamps quiet done]
    exact ⟨⟨{ quiet.toIdle with integers := .inl rfl }, quiet.lastGa, quiet.unconverted⟩, rfl⟩
  | ensureIndexes =>
    have ensured := (later_ensureIndexes done).2
    rw [quiet_ensureIndexes quiet done] at ensured ⊢
    refine ⟨⟨quiet.toIdle.withIndexes ensured, quiet.lastGa, quiet.unconverted⟩, ?_⟩
    exact congrArg (·, db.lastGa, db.rebuilt) (rows_withIndexes db.file _)
  | collectMissingStatistics =>
    cases done
    unfold Database.collectMissingStatistics
    split
    · exact ⟨quiet, rfl⟩
    · rename_i missing
      have few : db.rows.length < statisticsReportRows := quiet.statistics.resolve_left fun held =>
        missing (by simp [held])
      exact ⟨⟨{ quiet.toIdle with statistics := .inr few }, quiet.lastGa, quiet.unconverted⟩, rfl⟩
  | classifyTimestampConvention =>
    cases done
    unfold Database.classifyTimestampConvention
    split
    · exact ⟨quiet, rfl⟩
    · split
      · exact ⟨⟨{ quiet.toIdle with utc := fun _ => .inl rfl }, quiet.lastGa, quiet.unconverted⟩, rfl⟩
      · split
        · exact ⟨⟨{ quiet.toIdle with }, quiet.lastGa, quiet.unconverted⟩, rfl⟩
        · exact ⟨quiet, rfl⟩
  | vacuumWhenRoom =>
    cases done
    rw [quiet_vacuumWhenRoom quiet]
    exact ⟨quiet, rfl⟩
  | convertLegacy =>
    have set := (behind_convertLegacy done).2.1
    rw [quiet_convertLegacy quiet done]
    exact ⟨⟨{ quiet.toIdle with utc := fun named => .inl (set named) }, quiet.lastGa, quiet.unconverted⟩, rfl⟩
  | reconcile =>
    rw [quiet_reconcile quiet done]
    exact ⟨⟨{ quiet.toIdle with reconciled := quiet.reconciled.imp_right fun held => ⟨rfl, held.2⟩ }, quiet.lastGa,
      quiet.unconverted⟩, rfl⟩

/-- Where no pass finds anything to do, none of them touches a row. -/
theorem quiet_passes (quiet : db.Quiet host) {passes : List Pass}
    (ran : run (Database.pass host) db passes = some db') :
    db'.Quiet host ∧ db'.contents = db.contents := by
  refine run_keeps (I := fun now : Database => now.Quiet host ∧ now.contents = db.contents) ?_ ⟨quiet, rfl⟩ ran
  rintro now pass next ⟨quiet, same⟩ taken
  obtain ⟨quiet', same'⟩ := quiet.pass taken
  exact ⟨quiet', same'.trans same⟩

/-! ## Agreement -/

/-- The database of a store, of any version. -/
structure StoredDatabase extends Database where
  declared : toDatabase.Declared

/-- **The probe and the passes agree**: for a store that finds the same room
for a VACUUM both times, nothing is left to do once `initialize` has returned,
and where there is nothing to do it changes no row and rebuilds nothing. -/
theorem needs_migration_agrees (stored : StoredDatabase) {probe : Host}
    (timezone : probe.legacyTimestampTimezone = host.legacyTimestampTimezone)
    (room : probe.vacuumFits = host.vacuumFits)
    (returned : stored.initializeStore host = some db') :
    db'.needsMigration probe = some false ∧
    (stored.file.telegrams.isSome → stored.lastGa.isSome → stored.needsMigration probe = some false →
      db'.rows = stored.rows ∧ db'.lastGa = stored.lastGa ∧ db'.rebuilt = stored.rebuilt) := by
  have settled := settled_passes stored.declared returned
  constructor
  · obtain ⟨columns, held, _⟩ := settled.normalized.columns
    obtain ⟨table, held, _⟩ := Option.map_eq_some_iff.mp held
    exact (needsMigration_false (by rw [held]; rfl) settled.normalized.lastGa).mpr (settled.idle timezone room)
  · intro telegrams lastGa nothing
    have idle := (needsMigration_false telegrams lastGa).mp nothing
    have quiet : Database.Quiet host { stored.toDatabase with converted := false } :=
      ⟨{ idle with vacuum := fun pending => room ▸ idle.vacuum pending, utc :=
        fun named => idle.utc (timezone ▸ named) },
        lastGa, rfl⟩
    have same := (quiet_passes quiet returned).2
    exact ⟨congrArg Prod.fst same, congrArg (·.2.1) same, congrArg (·.2.2) same⟩

/-- A store with all the room it needs. -/
def roomyHost : Host where
  legacyTimestampTimezone := none
  now := 1700000000000000
  conversionFits := true
  vacuumFits := true
  utcFits := true
  castAsText x := .number (.ofReal x)
  real := sampleReals
  first := List.head?
  first_mem found := List.mem_of_head? found
  first_isSome nonempty := List.isSome_head?.mpr nonempty

/-- A file of the first version, with one telegram. -/
def flatDatabase : StoredDatabase where
  file := {
    telegrams := some {
      columns := [.timestamp, .string .source, .string .destination, .string .telegramtype,
        .string .direction, .payload,
        .dptMain, .dptSub, .dptName, .unit, .value, .valueNumeric, .rawData, .dataSecure, .string .sourceName,
        .string .destinationName]
      indexes := ["ix_telegrams_timestamp", "ix_telegrams_destination"]
      rows := [{
        content := {
          rowid := 1
          timestamp := .text "2026-09-28 01:00:01.667641".toList
          data := ⟨.text (.dict [("value", .str "on")]) trivial, .null⟩
          dptMain := some 1
          dptSub := none
          valueNumeric := none
          rawData := none
          dataSecure := none }
        strings := fun category => if category = .sourceName then none else some "1/1/1"
        ids := fun _ => none }] } }
  lastGa := none
  statistics := false
  timestampsInteger := false
  vacuumPending := false
  timestampsUtc := false
  utcFrom := none
  legacyMaxRowid := none
  reconciled := false
  declared := by
    intro columns held modern
    cases held
    exact (modern (.string .source) (by decide) (by decide)).elim

/-- Its first start has work to do, its second none. -/
theorem flat_database_started : flatDatabase.needsMigration roomyHost = some true ∧
    ∃ after again, flatDatabase.initializeStore roomyHost = some after ∧ after.needsMigration roomyHost = some false ∧
      after.initializeStore roomyHost = some again ∧
      again.rows = after.rows ∧ again.lastGa = after.lastGa ∧ again.rebuilt = after.rebuilt := by
  have returns : ((flatDatabase.initializeStore roomyHost).bind (Database.initializeStore roomyHost)).isSome := by
    decide +kernel
  obtain ⟨again, both⟩ := Option.isSome_iff_exists.mp returns
  obtain ⟨after, returned, returned'⟩ := Option.bind_eq_some_iff.mp both
  have first := (needs_migration_agrees flatDatabase rfl rfl returned).1
  have normalized := (settled_passes flatDatabase.declared returned).normalized
  obtain ⟨columns, held, _⟩ := normalized.columns
  obtain ⟨table, held, _⟩ := Option.map_eq_some_iff.mp held
  have second := (needs_migration_agrees ⟨after, fun _ _ _ => normalized.destinations⟩ rfl rfl returned').2
    (by rw [held]; rfl) normalized.lastGa first
  refine ⟨by decide +kernel, after, again, returned, first, returned', second⟩

end KnxTelegramStore.Sqlite
