import KnxTelegramStore.Lib.Transactions
import KnxTelegramStore.Sql.StoreMany

/-!
`SqliteStore._upgrade_schema` (`backends/sqlite.py`) as the statements one
start issues, and what a start leaves behind that completes or is cut off.
Python's `sqlite3` opens a transaction at the first INSERT, UPDATE or DELETE
(`Statement.isDml`); DDL before that commits on its own.

A row of `telegrams` is what identifies it to a caller (`content`: the cells
the upgrade only ever copies) with the string and id cells the upgrade
resolves. The cells of `value` and `payload`, which two of its passes rewrite
in place, are left out. The copy of the rebuild keeps `content` as a whole,
whatever columns it lists: `rebuild` lists all of the model that the table has.
`createAll` is one step for the statements of `create_all`, which leave a table
that is there as it is.
-/
namespace KnxTelegramStore.Sqlite
open EventMachine ImplicitTransactions
open Sql (Category IdSource StringLookup)

variable {α : Type}

/-- A column of `telegrams`, in this schema or an older one. -/
inductive Column where
  | timestamp
  /-- the flat string column of a category -/
  | string (category : Category)
  | id (category : Category)
  | payload
  | dptMain
  | dptSub
  | value
  | valueNumeric
  | rawData
  | dataSecure
  | dptName
  | unit
  | dptNameId
  | unitId
  deriving DecidableEq

/-- `cols_to_migrate`. -/
def categories : List Category :=
  [.source, .destination, .telegramtype, .direction, .sourceName, .destinationName]

/-- `legacy_columns`. -/
def legacyColumns : List Column :=
  categories.map .string ++ [.dptName, .unit, .dptNameId, .unitId]

/-- `expected_columns`. -/
def expectedColumns : List Column := [.payload, .dptMain, .dptSub, .value, .valueNumeric, .dataSecure]

/-- `keep_cols`, the columns of the model. -/
def keepColumns : List Column :=
  .timestamp :: categories.map .id ++
    [.payload, .dptMain, .dptSub, .value, .valueNumeric, .rawData, .dataSecure]

def modelIndexes : List String :=
  ["ix_telegrams_timestamp", "ix_telegrams_source_id", "ix_telegrams_destination_id", "ix_telegrams_dpt"]

structure Row (α : Type) where
  content : α
  strings : Category → Option String
  ids : Category → Option ℕ

structure Table (α : Type) where
  columns : List Column
  indexes : List String
  rows : List (Row α)

/-- The database file. -/
structure File (α : Type) where
  telegrams : Option (Table α)
  telegramsOld : Option (Table α) := none
  lookup : StringLookup := {}
  nullsRecovered : Bool := false
  dataUnwrapped : Bool := false

/-- The rows of a table, by what identifies them. -/
def Table.contents (table : Table α) : List α := table.rows.map Row.content

/-- What the model's metadata creates. -/
def Table.new (indexes : List String) : Table α where
  columns := keepColumns
  indexes := indexes
  rows := []

/-! ## Statements -/

inductive Statement where
  | createAll
  | insertLookup (category : Category)
  | addColumn (column : Column)
  | updateId (category : Category)
  | dropIndex (name : String)
  | dropOldIfExists
  | renameTelegrams
  | createTelegrams
  | createIndex (name : String)
  | copyRows (columns : List Column)
  | dropOld
  | recoverNulls
  | setNullsRecovered
  | unwrapRow
  | setDataUnwrapped
  deriving DecidableEq

/-- An INSERT, an UPDATE or a DELETE. -/
def Statement.isDml : Statement → Bool
  | .insertLookup _ | .updateId _ | .copyRows _ | .recoverNulls | .setNullsRecovered | .unwrapRow
  | .setDataUnwrapped => true
  | _ => false

/-- `ALTER TABLE telegrams ADD COLUMN`: its cells are NULL. -/
def Table.addColumn (table : Table α) (column : Column) : Table α :=
  { table with
    columns := table.columns ++ [column]
    rows := match column with
      | .id category => table.rows.map fun row => { row with ids := Function.update row.ids category none }
      | _ => table.rows }

/-- `UPDATE telegrams SET {category}_id = (SELECT id FROM string_lookup ...)`. -/
def Table.updateId (table : Table α) (lookup : StringLookup) (category : Category) : Table α :=
  { table with
    rows := table.rows.map fun row => { row with
      ids := Function.update row.ids category
        ((row.strings category).bind fun value => lookup.idOf (category, value)) } }

/-- One row of `INSERT INTO telegrams (...) SELECT ... FROM _telegrams_old`;
`none` is a NOT NULL constraint that fails. -/
def Row.copied (columns : List Column) (row : Row α) : Option (Row α) :=
  let ids := fun category => if .id category ∈ columns then row.ids category else none
  if (ids .source).isSome ∧ (ids .destination).isSome ∧ (ids .telegramtype).isSome ∧ (ids .direction).isSome then
    some { row with strings := fun _ => none, ids }
  else none

/-- What a statement does, unless it raises. -/
def execute (f : File α) : Statement → Option (File α)
  | .createAll => some { f with telegrams := some (f.telegrams.getD (.new modelIndexes)) }
  | .insertLookup category => do
    let table ← f.telegrams
    let values := (table.rows.filterMap fun row => row.strings category).dedup
    if .string category ∈ table.columns then
      some { f with lookup := f.lookup.insertAll .sqlite (values.map (category, ·)) } else none
  | .addColumn column => do
    let table ← f.telegrams
    if column ∈ table.columns then none else some { f with telegrams := some (table.addColumn column) }
  | .updateId category => do
    let table ← f.telegrams
    if .string category ∈ table.columns ∧ .id category ∈ table.columns then
      some { f with telegrams := some (table.updateId f.lookup category) } else none
  | .dropIndex name =>
    some { f with telegrams := f.telegrams.map fun table =>
      { table with indexes := table.indexes.filter (· ≠ name) } }
  | .dropOldIfExists => some { f with telegramsOld := none }
  | .renameTelegrams =>
    match f.telegrams, f.telegramsOld with
    | some table, none => some { f with telegrams := none, telegramsOld := some table }
    | _, _ => none
  | .createTelegrams =>
    match f.telegrams with
    | none => some { f with telegrams := some (.new []) }
    | some _ => none
  | .createIndex name => do
    let table ← f.telegrams
    if name ∈ table.indexes ++ (f.telegramsOld.map Table.indexes).getD [] then none
    else some { f with telegrams := some { table with indexes := table.indexes ++ [name] } }
  | .copyRows columns => do
    let table ← f.telegrams
    let old ← f.telegramsOld
    let rows ← old.rows.mapM (Row.copied columns)
    if ∀ column ∈ columns, column ∈ old.columns then
      some { f with telegrams := some { table with rows := table.rows ++ rows } } else none
  | .dropOld =>
    match f.telegramsOld with
    | some _ => some { f with telegramsOld := none }
    | none => none
  | .recoverNulls | .unwrapRow => f.telegrams.map fun _ => f
  | .setNullsRecovered => some { f with nullsRecovered := true }
  | .setDataUnwrapped => some { f with dataUnwrapped := true }

/-! ## `_upgrade_schema` -/

/-- 1a to 1c: the strings of a pre-normalized schema become ids. -/
def migrateStrings (columns : List Column) : List Statement :=
  (categories.filter (.string · ∈ columns)).map .insertLookup ++
    (categories.filter (.id · ∉ columns)).map (fun category => .addColumn (.id category)) ++
    categories.map .updateId

/-- 3: the table is rebuilt without its legacy columns. -/
def rebuild (columns : List Column) (indexes : List String) : List Statement :=
  indexes.map .dropIndex ++ [.dropOldIfExists, .renameTelegrams, .createTelegrams] ++
    modelIndexes.map .createIndex ++ [.copyRows (keepColumns.filter (· ∈ columns)), .dropOld]

/-- 3.5: values recovered from `value_numeric`, once. -/
def recoverNulls (nullsRecovered : Bool) (columns : List Column) : List Statement :=
  if nullsRecovered then []
  else (if .value ∈ columns ∧ .valueNumeric ∈ columns then [.recoverNulls] else []) ++ [.setNullsRecovered]

/-- 1 to 3.5, read off the columns the table has. -/
def upgradeSchema (table : Table α) (nullsRecovered : Bool) : List Statement :=
  let hasOldStringCols := .string .source ∈ table.columns
  let migrating := if hasOldStringCols then migrateStrings table.columns else []
  let columns := if hasOldStringCols then
    table.columns ++ (categories.filter (.id · ∉ table.columns)).map .id else table.columns
  let missing := expectedColumns.filter (· ∉ columns)
  let columns := columns ++ missing
  migrating ++ missing.map .addColumn ++
    (if ∃ column ∈ table.columns, column ∈ legacyColumns then rebuild columns table.indexes else []) ++
    recoverNulls nullsRecovered columns

/-- 4: the pass that unwraps legacy JSON, in `wrapped` rows. -/
def unwrapData (dataUnwrapped : Bool) (wrapped : ℕ) : List Statement :=
  if dataUnwrapped then [] else List.replicate wrapped .unwrapRow ++ [.setDataUnwrapped]

/-! ## Starts -/

/-- The statements of a start up to the unwrapping pass. -/
def upgrading (f : File α) : List Statement :=
  .createAll :: upgradeSchema (f.telegrams.getD (.new modelIndexes)) f.nullsRecovered

/-- A start that is cut off after `cut` statements. -/
structure Interruption where
  cut : ℕ
  wrapped : ℕ := 0

/-- The statements executed before the cut. -/
def Interruption.executed (f : File α) (interruption : Interruption) : List Statement :=
  (upgrading f ++ unwrapData f.dataUnwrapped interruption.wrapped).take interruption.cut

/-- What a start leaves that raises, or dies, at its next statement. -/
def interruptedStart (f : File α) (interruption : Interruption) : Option (File α) :=
  (run (Connection.execute execute Statement.isDml) (.of f) (interruption.executed f)).map Connection.committed

/-- What a start leaves that completes. An exception in the unwrapping pass is
swallowed, so that only `unwrapped` of its statements may have run. -/
def completedStart (f : File α) (wrapped unwrapped : ℕ) : Option (File α) :=
  (run (Connection.execute execute Statement.isDml) (.of f)
    (upgrading f ++ (unwrapData f.dataUnwrapped wrapped).take unwrapped)).map Connection.working

end KnxTelegramStore.Sqlite
