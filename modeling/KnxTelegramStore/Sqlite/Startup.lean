import KnxTelegramStore.Lib.Runs
import KnxTelegramStore.Sqlite.Conversion
import KnxTelegramStore.Sqlite.Schema
import KnxTelegramStore.Sqlite.Unwrapping
import KnxTelegramStore.Sqlite.UtcMigration

/-!
`SqliteStore.initialize` (`backends/sqlite.py`) of a writing store as the
passes it runs one after the other over the whole file, and
`_needs_migration_sync`, which looks for the work of each of them. A pass that
raises has no result.

The rows of both tables stand in the order of their rowids, and the passes
see every cell of them. A file without `string_lookup` or `store_metadata` is
one where these are empty.
-/
namespace KnxTelegramStore.Sqlite
open EventMachine

/-! ## Rows and their cells -/

/-- The cells of a row besides its strings and ids. -/
structure Cells where
  rowid : ℕ
  timestamp : Stamp
  data : DataCells
  dptMain : Option ℤ
  dptSub : Option ℤ
  valueNumeric : Option PyFloat
  rawData : Option String
  dataSecure : Option Bool

/-- With NULL in a column that has just been added, or has not been copied. -/
def Cells.blank (cells : Cells) : Column → Cells
  | .payload => { cells with data.payload := .null }
  | .dptMain => { cells with dptMain := none }
  | .dptSub => { cells with dptSub := none }
  | .value => { cells with data.value := .null }
  | .valueNumeric => { cells with valueNumeric := none }
  | .rawData => { cells with rawData := none }
  | .dataSecure => { cells with dataSecure := none }
  | .timestamp | .string _ | .id _ | .dptName | .unit | .dptNameId | .unitId => cells

/-- The cells of the columns that are copied. -/
def Cells.copied (columns : List Column) (cells : Cells) : Cells :=
  (keepColumns.filter (· ∉ columns)).foldl Cells.blank cells

/-- `(value IS NULL OR value = 'null') AND value_numeric IS NOT NULL`. -/
def Cells.nullToRecover (cells : Cells) : Bool :=
  match cells.data.value with
  | .null | .text .null _ => cells.valueNumeric.isSome
  | _ => false

/-- `UPDATE telegrams SET value = CAST(value_numeric AS TEXT)`; `castAsText` is
what the column then holds. -/
def Cells.recovered (castAsText : PyFloat → JsonCell) (cells : Cells) : Cells :=
  match cells.valueNumeric with
  | some x => if cells.nullToRecover then { cells with data.value := castAsText x } else cells
  | none => cells

/-- What the last pass of the upgrade makes of a row. -/
def Cells.unwrapped (real : Reals) (cells : Cells) : Cells :=
  if cells.data.selected && cells.data.needsUpdate then { cells with data := cells.data.update real } else cells

/-- The same row with its cells rewritten. -/
def Row.update {α : Type} (f : α → α) (row : Row α) : Row α := { row with content := f row.content }

def File.withRows {α : Type} (f : File α) (rows : List (Row α)) : File α :=
  { f with telegrams := f.telegrams.map fun table => { table with rows } }

/-- The rows of `telegrams`. -/
def File.rows {α : Type} (f : File α) : List (Row α) := (f.telegrams.map Table.rows).getD []

/-- Rows that are inserted into an empty table. -/
def numbered (rows : List (Row Cells)) : List (Row Cells) :=
  rows.mapIdx fun index row => row.update fun cells => { cells with rowid := index + 1 }

/-- `execute`, with what a statement does to the cells. -/
def executeCells (castAsText : PyFloat → JsonCell) (f : File Cells) (statement : Statement) : Option (File Cells) :=
  (execute f statement).map fun after =>
    match statement with
    | .addColumn column => after.withRows (after.rows.map (Row.update fun cells => cells.blank column))
    | .copyRows columns => after.withRows (numbered (after.rows.map (Row.update (Cells.copied columns))))
    | .recoverNulls => after.withRows (after.rows.map (Row.update (Cells.recovered castAsText)))
    | _ => after

/-! ## The file, and what surrounds it -/

/-- Work that is as long as a table or an index is large. -/
inductive Rebuilt where
  | table
  | index (name : String)
  | vacuum

/-- The database file. -/
structure Database where
  /-- `telegrams`, `string_lookup` and the flags of the schema upgrade -/
  file : File Cells
  lastGa : Option (List (Row Cells))
  /-- `sqlite_stat1` has a row for `ix_telegrams_timestamp` -/
  statistics : Bool
  /-- the flag `timestamps_integer` -/
  timestampsInteger : Bool
  /-- the flag `vacuum_pending` -/
  vacuumPending : Bool
  /-- the flag `timestamps_utc` -/
  timestampsUtc : Bool
  /-- `timestamps_utc_from` -/
  utcFrom : Option ℤ
  /-- `timestamps_legacy_max_rowid` -/
  legacyMaxRowid : Option ℕ
  /-- the flag `last_ga_newest_reconciled` -/
  reconciled : Bool
  /-- what `_convert_timestamps_to_integers` has returned to the start that is
  under way, until it is used -/
  converted : Bool := false
  /-- no data of the program: what has been rebuilt so far -/
  rebuilt : List Rebuilt := []

/-- The store's argument `legacy_timestamp_timezone`, the clock and the disk it
finds, and what is up to SQLite. -/
structure Host where
  legacyTimestampTimezone : Option Zone
  now : ℤ
  /-- `_require_free_space` of the conversion to integers -/
  conversionFits : Bool
  /-- `_vacuum_fits` -/
  vacuumFits : Bool
  /-- `_require_free_space` of the conversion to UTC -/
  utcFits : Bool
  castAsText : PyFloat → JsonCell
  real : Reals
  /-- the candidate of a destination that `row_number()` counts first -/
  first : List (Row Cells) → Option (Row Cells)
  first_mem : ∀ {rows row}, first rows = some row → row ∈ rows
  first_isSome : ∀ {rows}, rows ≠ [] → (first rows).isSome

namespace Database

variable (host : Host) (db : Database)

/-- The rows of `telegrams`. -/
def rows : List (Row Cells) := db.file.rows

/-- The rows of `last_ga_telegrams`. -/
def summaries : List (Row Cells) := db.lastGa.getD []

def hasRows : Bool := !db.rows.isEmpty

def hasSummaries : Bool := !db.summaries.isEmpty

end Database

def Statement.rebuilt : Statement → List Rebuilt
  | .createTelegrams => [.table]
  | .createIndex name => [.index name]
  | _ => []

/-- `_STATISTICS_CANARY`. -/
def statisticsCanary : String := "ix_telegrams_timestamp"

/-- The indexes of `telegrams`. -/
def File.indexes {α : Type} (f : File α) : List String := (f.telegrams.map Table.indexes).getD []

/-- A statement on the whole file. The statistics of an index go with it. -/
def Database.execute (host : Host) (db : Database) (statement : Statement) : Option Database :=
  (executeCells host.castAsText db.file statement).map fun file =>
    { db with
      file
      lastGa := match statement with
        | .createAll => some db.summaries
        | _ => db.lastGa
      statistics := match statement with
        | .dropIndex name => db.statistics && !(name = statisticsCanary && name ∈ db.file.indexes)
        | _ => db.statistics
      rebuilt := db.rebuilt ++ statement.rebuilt }

/-! ## The passes -/

/-- Steps 1 and 2: `create_all`, and `_upgrade_schema`. -/
def Database.upgradeSchema (host : Host) (db : Database) : Option Database := do
  let created ← db.execute host .createAll
  let table ← created.file.telegrams
  let upgraded ← run (Database.execute host) created (Sqlite.upgradeSchema table created.file.nullsRecovered)
  if upgraded.file.dataUnwrapped then return upgraded
  let rows := upgraded.rows.map (Row.update (Cells.unwrapped host.real))
  return { upgraded with file := { upgraded.file.withRows rows with dataUnwrapped := true } }

def Row.isText (row : Row Cells) : Bool := row.content.timestamp.isText

/-- `_convert_rows_to_integers`. -/
def convertRowsToIntegers (low high : ℕ) (rows : List (Row Cells)) : List (Row Cells) :=
  rows.map fun row =>
    if row.isText ∧ low < row.content.rowid ∧ row.content.rowid ≤ high then
      row.update fun cells => { cells with timestamp := .integer cells.timestamp.instant } else row

/-- `SELECT max(rowid)`, 0 for an empty table. -/
def greatestRowid (rows : List (Row Cells)) : ℕ := (rows.map fun row => row.content.rowid).foldr max 0

/-- `_convert_table_to_integers`. -/
def convertTableToIntegers (rows : List (Row Cells)) : List (Row Cells) :=
  let batchRows := conversionBatchRows
  (List.range ((greatestRowid rows + batchRows - 1) / batchRows)).foldl
    (fun rows batch => convertRowsToIntegers (batch * batchRows) (batch * batchRows + batchRows) rows) rows

/-- Step 2.1, `_convert_timestamps_to_integers`. -/
def Database.convertTimestampsToIntegers (host : Host) (db : Database) : Option Database :=
  if db.timestampsInteger then some { db with converted := false }
  else if db.rows.any Row.isText || db.summaries.any Row.isText then
    if host.conversionFits then
      (db.execute host (.dropIndex statisticsCanary)).map fun dropped =>
        { dropped with
          file := dropped.file.withRows (convertTableToIntegers dropped.rows)
          lastGa := dropped.lastGa.map convertTableToIntegers
          timestampsInteger := true
          converted := true }
    else none
  else some { db with timestampsInteger := true, converted := false }

/-- `_OBSOLETE_INDEXES`. -/
def obsoleteIndexes : List String := ["ix_telegrams_telegramtype_id", "ix_telegrams_direction_id"]

/-- The columns of the model's indexes. -/
def indexColumns (name : String) : List Column :=
  if name = "ix_telegrams_timestamp" then [.timestamp]
  else if name = "ix_telegrams_source_id" then [.id .source]
  else if name = "ix_telegrams_destination_id" then [.id .destination]
  else [.dptMain, .dptSub]

/-- Step 2.2, `ensure_indexes`. The other two tables declare none. -/
def Database.ensureIndexes (host : Host) (db : Database) : Option Database := do
  let table ← db.file.telegrams
  let missing := modelIndexes.filter (· ∉ table.indexes)
  if ∀ name ∈ missing, ∀ column ∈ indexColumns name, column ∈ table.columns then
    run (Database.execute host) db (missing.map .createIndex ++ obsoleteIndexes.map .dropIndex)
  else none

/-- Step 2.3, `_collect_missing_statistics`. -/
def Database.collectMissingStatistics (db : Database) : Database :=
  if db.statistics || !db.hasRows then db else { db with statistics := statisticsCanary ∈ db.file.indexes }

/-- Step 2.4, `_classify_timestamp_convention`. -/
def Database.classifyTimestampConvention (host : Host) (db : Database) : Database :=
  if db.timestampsUtc then db
  else if !db.hasRows && !db.hasSummaries then { db with timestampsUtc := true }
  else if db.utcFrom.isNone && host.legacyTimestampTimezone.isNone then
    { db with utcFrom := some host.now, legacyMaxRowid := some (greatestRowid db.rows) }
  else db

/-- Step 2.5, with `_vacuum_when_room`. -/
def Database.vacuumWhenRoom (host : Host) (db : Database) : Database :=
  if db.converted || db.vacuumPending then
    if host.vacuumFits then
      { db with vacuumPending := false, converted := false, rebuilt := db.rebuilt ++ [.vacuum] }
    else { db with vacuumPending := true, converted := false }
  else db

/-- An integer as `_as_naive` takes it; a text makes it raise. -/
def Stamp.micros : Stamp → Option ℤ
  | .integer micros => some micros
  | .text _ => none

/-- `_legacy_row_scopes`. -/
def Database.legacyRowScopes (zone : Zone) (db : Database) : (Cells → Bool) × (Cells → Bool) :=
  match db.utcFrom with
  | none => (fun _ => true, fun _ => true)
  | some boundary =>
    let conservative : Cells → Bool := fun cells => cells.timestamp < .integer boundary
    match db.legacyMaxRowid with
    | none => (conservative, conservative)
    | some marker =>
      if marker ≤ greatestRowid db.rows then
        (fun cells => cells.rowid ≤ marker ∧ cells.timestamp < .integer (zone.wallClock boundary), conservative)
      else (conservative, conservative)

/-- `_convert_table_to_utc`. -/
def shiftRows (zone : Zone) (inScope : Cells → Bool) (rows : List (Row Cells)) : Option (List (Row Cells)) := do
  let timestamps ← (rows.filter fun row => inScope row.content).mapM fun row => row.content.timestamp.micros
  let shift ← shiftExpression zone timestamps
  return rows.map <| Row.update fun cells =>
    match cells.timestamp with
    | .integer micros => if inScope cells then { cells with timestamp := .integer (shift micros) } else cells
    | .text _ => cells

/-- `migrate_timestamps_to_utc`. -/
def Database.migrateTimestampsToUtc (host : Host) (zone : Zone) (db : Database) : Option Database :=
  if db.timestampsUtc then some db
  else if host.utcFits then do
    let scopes := db.legacyRowScopes zone
    let telegrams ← shiftRows zone scopes.1 db.rows
    let lastGa ← shiftRows zone scopes.2 db.summaries
    return { db with
      file := db.file.withRows telegrams
      lastGa := db.lastGa.map fun _ => lastGa
      timestampsUtc := true }
  else none

/-- Step 3. -/
def Database.convertLegacy (host : Host) (db : Database) : Option Database :=
  match host.legacyTimestampTimezone with
  | none => some db
  | some zone => db.migrateTimestampsToUtc host zone

/-- An equality of `destination_id`s, which a NULL does not meet. -/
def Row.sameDestination (row other : Row Cells) : Bool :=
  (row.ids .destination).isSome && row.ids .destination = other.ids .destination

/-- `newer_telegram`. -/
def newerTelegram (rows : List (Row Cells)) (summary : Row Cells) : Bool :=
  rows.any fun row => row.sameDestination summary && summary.content.timestamp < row.content.timestamp

/-- `candidates`: the rows with the latest timestamp of their destination. -/
def candidates (rows : List (Row Cells)) : List (Row Cells) :=
  rows.filter fun row => (row.ids .destination).isSome &&
    rows.all fun other => !other.sameDestination row || other.content.timestamp ≤ row.content.timestamp

/-- The candidates with rank 1. -/
def ranked (host : Host) (rows : List (Row Cells)) : List (Row Cells) :=
  (rows.filterMap fun row => row.ids .destination).dedup.filterMap fun destinationId =>
    host.first ((candidates rows).filter fun row => row.ids .destination = some destinationId)

/-- A summary has its `destination_id` for a rowid. -/
def Row.summary (row : Row Cells) : Row Cells :=
  { row.update fun cells => { cells with rowid := (row.ids .destination).getD 0 } with strings := fun _ => none }

/-- `INSERT INTO last_ga_telegrams ... ON CONFLICT DO NOTHING`. -/
def insertSummary (summaries : List (Row Cells)) (row : Row Cells) : List (Row Cells) :=
  if summaries.any row.sameDestination then summaries else summaries ++ [row.summary]

/-- Step 4, `_reconcile_last_ga_telegrams`. A candidate that a NOT NULL
constraint refuses makes it raise. -/
def Database.reconcile (host : Host) (db : Database) : Option Database :=
  if db.hasSummaries && db.reconciled then some db
  else do
    let table ← db.file.telegrams
    let found := ranked host table.rows
    if (∀ column ∈ keepColumns, column ∈ table.columns) ∧
        ∀ row ∈ found, ∀ category ∈ [Sql.Category.source, .telegramtype, .direction], (row.ids category).isSome then
      return { db with
        lastGa := some (found.foldl insertSummary (db.summaries.filter fun row => !newerTelegram table.rows row))
        reconciled := true }
    else none

inductive Pass where
  | upgradeSchema
  | convertTimestampsToIntegers
  | ensureIndexes
  | collectMissingStatistics
  | classifyTimestampConvention
  | vacuumWhenRoom
  | convertLegacy
  | reconcile

/-- The passes in their order. -/
def passes : List Pass :=
  [.upgradeSchema, .convertTimestampsToIntegers, .ensureIndexes, .collectMissingStatistics,
    .classifyTimestampConvention,
    .vacuumWhenRoom, .convertLegacy, .reconcile]

def Database.pass (host : Host) (db : Database) : Pass → Option Database
  | .upgradeSchema => db.upgradeSchema host
  | .convertTimestampsToIntegers => db.convertTimestampsToIntegers host
  | .ensureIndexes => db.ensureIndexes host
  | .collectMissingStatistics => some db.collectMissingStatistics
  | .classifyTimestampConvention => some (db.classifyTimestampConvention host)
  | .vacuumWhenRoom => some (db.vacuumWhenRoom host)
  | .convertLegacy => db.convertLegacy host
  | .reconcile => db.reconcile host

/-- `initialize`, if it returns. -/
def Database.initializeStore (host : Host) (db : Database) : Option Database :=
  run (Database.pass host) { db with converted := false } passes

/-! ## The probe -/

/-- `_STATISTICS_REPORT_ROWS`. -/
def statisticsReportRows : ℕ := 100000

/-- `_pending_startup_work_sync`. Without a table `last_ga_telegrams` a look at
its rows raises. -/
def Database.pendingStartupWork (db : Database) : Option Bool := do
  if modelIndexes.any (· ∉ db.file.indexes) then return true
  if db.reconciled then
    let summaries ← db.lastGa
    return summaries.isEmpty && db.hasRows
  return db.hasRows

/-- `_needs_migration_sync`. -/
def Database.needsMigration (host : Host) (db : Database) : Option Bool :=
  match db.file.telegrams with
  | none => some false
  | some table => do
    if !db.statistics && statisticsReportRows ≤ table.rows.length then return true
    if !db.timestampsInteger && (db.hasRows || db.hasSummaries) then return true
    if db.vacuumPending && host.vacuumFits then return true
    if legacyColumns.any (· ∈ table.columns) then return true
    if expectedColumns.any (· ∉ table.columns) then return true
    if !db.file.nullsRecovered && table.rows.any (fun row => row.content.nullToRecover) then return true
    if !db.file.dataUnwrapped && table.rows.any (fun row => row.content.data.selected) then return true
    if host.legacyTimestampTimezone.isSome && !db.timestampsUtc then
      if db.hasRows then return true
      let summaries ← db.lastGa
      if !summaries.isEmpty then return true
    db.pendingStartupWork

end KnxTelegramStore.Sqlite
