import KnxTelegramStore.Sqlite.StartupPasses

/-!
`store_many` (`base_sql.py`) on a database file that `initialize` has upgraded,
or is about to. A batch that is written becomes one row for each of its
telegrams, behind the rows that are there (`storeMany_appends`).
-/
namespace KnxTelegramStore.Sqlite
open EventMachine
open Sql (Columns LookupCache Stores StringLookup resolve toResolve valuesOf latestPerDestination)

/-- What is read in the column `payload`. -/
def payloadJson : Option Payload → PyValue
  | none => .null
  | some payload => payload.json

/-- The row that an INSERT writes. -/
def Row.inserted (rowid : ℕ) (columns : Columns ℤ) : Row Cells where
  content := {
    rowid
    timestamp := .integer columns.timestamp
    data := ⟨.holding columns.value, .holding (payloadJson columns.payload)⟩
    dptMain := columns.dptMain
    dptSub := columns.dptSub
    valueNumeric := columns.valueNumeric
    rawData := columns.rawData
    dataSecure := columns.dataSecure }
  strings _ := none
  ids
    | .source => some columns.sourceId
    | .destination => some columns.destinationId
    | .telegramtype => some columns.telegramtypeId
    | .direction => some columns.directionId
    | .sourceName => columns.sourceNameId
    | .destinationName => columns.destinationNameId

/-- The rows of an executemany, behind those of the table. -/
def insertedRows (rows : List (Row Cells)) (values : List (Columns ℤ)) : List (Row Cells) :=
  values.mapIdx fun index => Row.inserted (greatestRowid rows + 1 + index)

/-- `INSERT INTO last_ga_telegrams ... ON CONFLICT (destination_id) DO UPDATE
... WHERE excluded.timestamp > last_ga_telegrams.timestamp`. -/
def upsertSummary (summaries : List (Row Cells)) (columns : Columns ℤ) : List (Row Cells) :=
  let excluded := (Row.inserted 0 columns).summary
  if summaries.any excluded.sameDestination then
    summaries.map fun kept =>
      if excluded.sameDestination kept ∧ kept.content.timestamp < excluded.content.timestamp then excluded else kept
  else summaries ++ [excluded]

/-- The transaction of `store_many` for a batch that is not empty, and the ids
it publishes; `none` if it raises. -/
def Database.storeMany (real : Reals) (tzdb : TzDb) (cache : LookupCache) (telegrams : List StoredTelegram)
    (db : Database) : Option (Database × LookupCache) := do
  let table ← db.file.telegrams
  let summaries ← db.lastGa
  let lookup := db.file.lookup.insertAll .sqlite (toResolve cache telegrams)
  let lookupIds := resolve cache lookup telegrams
  let values ← telegrams.mapM (valuesOf lookupIds)
  let rows ← values.mapM (Columns.bind ⟨.sqlite, tzdb, real⟩)
  let latest ← latestPerDestination tzdb values
  let upserted ← latest.mapM (Columns.bind ⟨.sqlite, tzdb, real⟩)
  if ∀ column ∈ keepColumns, column ∈ table.columns then
    some ({ db with
      file := { db.file with
        telegrams := some { table with rows := table.rows ++ insertedRows table.rows rows }
        lookup }
      lastGa := some (upserted.foldl upsertSummary summaries) }, lookupIds)
  else none

/-- A row that was written from a telegram. -/
def Row.StoredAs (real : Reals) (tzdb : TzDb) (lookup : StringLookup) (row : Row Cells)
    (t : StoredTelegram) : Prop :=
  ∃ rowid columns, row = .inserted rowid columns ∧ Stores ⟨.sqlite, tzdb, real⟩ lookup columns t

variable {real : Reals} {tzdb : TzDb} {cache lookupIds : LookupCache} {lookup : StringLookup}
variable {telegrams : List StoredTelegram} {t : StoredTelegram} {db db' : Database} {row : Row Cells}

/-- It has the very instant of the telegram. -/
theorem Row.StoredAs.timestamp (stored : row.StoredAs real tzdb lookup t) :
    row.content.timestamp = .integer (t.timestamp.toMicros tzdb) := by
  obtain ⟨rowid, columns, rfl, stores⟩ := stored
  exact congrArg Stamp.integer stores.timestamp

theorem inserted_storedAs {rows : List (Row Cells)} {values : List (Columns ℤ)}
    (stores : List.Forall₂ (Stores ⟨.sqlite, tzdb, real⟩ lookup) values telegrams) :
    List.Forall₂ (Row.StoredAs real tzdb lookup) (insertedRows rows values) telegrams := by
  refine List.forall₂_iff_get.mpr ⟨?_, fun i below below' => ?_⟩
  · rw [insertedRows, List.length_mapIdx, stores.length_eq]
  · have own : i < values.length := by rwa [stores.length_eq]
    refine ⟨greatestRowid rows + 1 + i, values.get ⟨i, own⟩, ?_, stores.get own below'⟩
    simp [insertedRows]

/-- What a `store_many` that succeeds has gone through. -/
theorem storeMany_success (done : db.storeMany real tzdb cache telegrams = some (db', lookupIds)) :
    ∃ table values rows, db.file.telegrams = some table ∧
      List.Forall₂ (fun t val => valuesOf (resolve cache db'.file.lookup telegrams) t = some val) telegrams values ∧
      List.Forall₂ (fun val row => Columns.bind ⟨.sqlite, tzdb, real⟩ val = some row) values rows ∧
      db'.file.lookup = db.file.lookup.insertAll .sqlite (toResolve cache telegrams) ∧
      db'.rows = db.rows ++ insertedRows table.rows rows := by
  simp only [Database.storeMany, Option.bind_eq_bind, Option.bind_eq_some_iff] at done
  obtain ⟨table, held, summaries, _, values, made, rows, bound, latest, _, upserted, _, done⟩ := done
  obtain ⟨_, done⟩ := Option.ite_none_right_eq_some.mp done
  cases done
  refine ⟨table, values, rows, held, Sql.mapM_some_iff.mp made, Sql.mapM_some_iff.mp bound, rfl, ?_⟩
  simp [Database.rows, File.rows, held]

/-- **A batch that is written** adds one row for each of its telegrams, in
their order, and leaves the others as they are. -/
theorem storeMany_appends (truthful : cache.Truthful db.file.lookup)
    (done : db.storeMany real tzdb cache telegrams = some (db', lookupIds)) :
    ∃ rows, db'.rows = db.rows ++ rows ∧ List.Forall₂ (Row.StoredAs real tzdb db'.file.lookup) rows telegrams := by
  obtain ⟨table, values, rows, _, made, bound, grown, appended⟩ := storeMany_success done
  refine ⟨_, appended, inserted_storedAs (Sql.batch_stores ?_ made bound)⟩
  rw [grown]
  exact Sql.truthful_resolve .sqlite truthful telegrams

theorem length_storeMany (done : db.storeMany real tzdb cache telegrams = some (db', lookupIds)) :
    db'.rows.length = db.rows.length + telegrams.length := by
  obtain ⟨table, values, rows, _, made, bound, _, appended⟩ := storeMany_success done
  rw [appended, List.length_append, insertedRows, List.length_mapIdx, made.length_eq, bound.length_eq]

/-! ## The lookups of a start -/

/-- Every row of `lookup` is in the one of `db`. -/
def Database.LookedUp (lookup : StringLookup) (db : Database) : Prop := lookup.Grows db.file.lookup

theorem grows_execute {α : Type} {f f' : File α} {statement : Statement} (done : execute f statement = some f') :
    f.lookup.Grows f'.lookup := by
  cases statement with
  | insertLookup category =>
    obtain ⟨table, _, done⟩ := Option.bind_eq_some_iff.mp done
    obtain ⟨_, done⟩ := Option.ite_none_right_eq_some.mp done
    cases done
    exact Sql.grows_insertAll .sqlite _ _
  | createAll | dropIndex | dropOldIfExists | setNullsRecovered | setDataUnwrapped =>
    cases done
    exact fun _ mem => mem
  | addColumn | updateId | createIndex =>
    obtain ⟨table, _, done⟩ := Option.bind_eq_some_iff.mp done
    split at done <;> cases done
    exact fun _ mem => mem
  | renameTelegrams | createTelegrams | dropOld =>
    simp only [execute] at done
    split at done <;> cases done
    exact fun _ mem => mem
  | copyRows =>
    obtain ⟨table, _, done⟩ := Option.bind_eq_some_iff.mp done
    obtain ⟨old, _, done⟩ := Option.bind_eq_some_iff.mp done
    obtain ⟨copied, _, done⟩ := Option.bind_eq_some_iff.mp done
    split at done <;> cases done
    exact fun _ mem => mem
  | recoverNulls | unwrapRow =>
    obtain ⟨_, _, rfl⟩ := Option.map_eq_some_iff.mp done
    exact fun _ mem => mem

theorem lookedUp_execute {host : Host} {statement : Statement} (held : db.LookedUp lookup)
    (taken : db.execute host statement = some db') : db'.LookedUp lookup := by
  obtain ⟨file, done, rfl⟩ := Option.map_eq_some_iff.mp taken
  obtain ⟨middle, executed, rfl | ⟨rows, rfl, _⟩⟩ := executeCells_some done
  · exact fun row mem => grows_execute executed row (held row mem)
  · exact fun row mem => grows_execute executed row (held row mem)

theorem lookedUp_run {host : Host} {statements : List Statement} (held : db.LookedUp lookup)
    (ran : run (Database.execute host) db statements = some db') : db'.LookedUp lookup :=
  run_keeps (I := Database.LookedUp lookup) (fun _ _ _ held taken => lookedUp_execute held taken) held ran

/-- No pass gives a string another id. -/
theorem lookedUp_pass {host : Host} {pass : Pass} (held : db.LookedUp lookup)
    (done : db.pass host pass = some db') : db'.LookedUp lookup := by
  cases pass with
  | upgradeSchema =>
    simp only [Database.pass, Database.upgradeSchema, Option.bind_eq_bind, Option.bind_eq_some_iff] at done
    obtain ⟨created, creating, table, _, upgraded, upgrading, done⟩ := done
    have first : created.LookedUp lookup := lookedUp_execute held creating
    have second := lookedUp_run first upgrading
    split at done <;> cases done
    · exact second
    · exact second
  | convertTimestampsToIntegers =>
    simp only [Database.pass, Database.convertTimestampsToIntegers] at done
    split at done
    · cases done
      exact held
    · split at done
      · split at done
        · obtain ⟨dropped, taken, rfl⟩ := Option.map_eq_some_iff.mp done
          exact (lookedUp_execute held taken :)
        · cases done
      · cases done
        exact held
  | ensureIndexes =>
    obtain ⟨table, _, done⟩ := Option.bind_eq_some_iff.mp done
    obtain ⟨_, ran⟩ := Option.ite_none_right_eq_some.mp done
    exact lookedUp_run held ran
  | collectMissingStatistics =>
    cases done
    unfold Database.collectMissingStatistics
    split <;> exact held
  | classifyTimestampConvention =>
    cases done
    unfold Database.classifyTimestampConvention
    split
    · exact held
    · split
      · exact held
      · split <;> exact held
  | vacuumWhenRoom =>
    cases done
    unfold Database.vacuumWhenRoom
    split
    · split <;> exact held
    · exact held
  | convertLegacy =>
    simp only [Database.pass, Database.convertLegacy] at done
    split at done
    · cases done
      exact held
    · obtain ⟨_, rfl⟩ | ⟨telegrams, lastGa, _, _, rfl⟩ := migrate_some done
      · exact held
      · exact held
  | reconcile =>
    simp only [Database.pass, Database.reconcile] at done
    split at done
    · cases done
      exact held
    · obtain ⟨table, _, done⟩ := Option.bind_eq_some_iff.mp done
      obtain ⟨_, done⟩ := Option.ite_none_right_eq_some.mp done
      cases done
      exact held

end KnxTelegramStore.Sqlite
