import KnxTelegramStore.Sql.Resolved
import KnxTelegramStore.Sqlite.StartupProbe

/-!
What `SqliteStore._upgrade_schema` (`backends/sqlite.py`) makes of a table with
flat string columns. The UPDATE that looks the ids up names all six of them,
where the INSERT before it asks for each whether it is there;
`flat_upgrade_iff` says which tables that leaves upgradable, and that what
their rows say is kept.
-/
namespace KnxTelegramStore.Sqlite
open EventMachine
open Sql (Category ResolvedRow StringLookup)

/-- What a row says in a table with these columns. A flat string goes before
the id that is made of it. -/
def Row.resolved (columns : List Column) (lookup : StringLookup) (row : Row Cells) : ResolvedRow where
  strings category :=
    (if .string category ∈ columns then row.strings category
    else if .id category ∈ columns then (row.ids category).bind (lookup.stringOf category)
    else none).getD ""
  dptMain := if .dptMain ∈ columns then row.content.dptMain else none
  dptSub := if .dptSub ∈ columns then row.content.dptSub else none
  valueNumeric := if .valueNumeric ∈ columns then row.content.valueNumeric else none
  rawData := if .rawData ∈ columns then row.content.rawData else none

def Table.resolved (lookup : StringLookup) (table : Table Cells) : List ResolvedRow :=
  table.rows.map (Row.resolved table.columns lookup)

/-- What the rows of `telegrams` say. -/
def Database.resolved (db : Database) : Option (List ResolvedRow) :=
  db.file.telegrams.map (Table.resolved db.file.lookup)

/-- The strings that no schema lacks. -/
def requiredCategories : List Category := [.source, .destination, .telegramtype, .direction]

/-- A table of the schema before ids. -/
structure Table.Flat (table : Table Cells) : Prop where
  required : ∀ category ∈ requiredCategories, .string category ∈ table.columns
  unnormalized : ∀ category, .id category ∉ table.columns
  nonNull : ∀ row ∈ table.rows, ∀ category ∈ requiredCategories, (row.strings category).isSome

/-- The upgrade returns, every row says what it said before, and a second
upgrade changes nothing. -/
def UpgradePreserves (host : Host) (db : Database) : Prop :=
  ∃ after, db.upgradeSchema host = some after ∧ after.resolved = db.resolved ∧ after.upgradeSchema host = some after

variable {host : Host} {db db' : Database} {f : File Cells} {table : Table Cells} {statements : List Statement}
variable {castAsText : PyFloat → JsonCell} {column : Column} {columns : List Column} {category : Category}
variable {lookup : StringLookup} {row : Row Cells}

/-! ## The statements on rows -/

/-- A row in a table that gets a new column. -/
def Row.withColumn (row : Row Cells) (column : Column) : Row Cells where
  content := row.content.blank column
  strings := row.strings
  ids := match column with
    | .id category => Function.update row.ids category none
    | _ => row.ids

def Table.added (columns : List Column) (table : Table Cells) : Table Cells :=
  { table with
    columns := table.columns ++ columns
    rows := table.rows.map fun row => columns.foldl Row.withColumn row }

/-- The id of the string in a flat column. -/
def Row.linkedId (lookup : StringLookup) (row : Row Cells) (category : Category) : Option ℕ :=
  (row.strings category).bind fun value => lookup.idOf (category, value)

def Row.linked (lookup : StringLookup) (row : Row Cells) (category : Category) : Row Cells :=
  { row with ids := Function.update row.ids category (row.linkedId lookup category) }

def Table.linked (lookup : StringLookup) (categories : List Category) (table : Table Cells) : Table Cells :=
  { table with rows := table.rows.map fun row => categories.foldl (Row.linked lookup) row }

/-- The values of a flat column. -/
def Table.strings (table : Table Cells) (category : Category) : List String :=
  (table.rows.filterMap fun row => row.strings category).dedup

theorem executeCells_addColumn (absent : column ∉ table.columns) :
    executeCells castAsText { f with telegrams := some table } (.addColumn column) =
      some { f with telegrams := some (table.added [column]) } := by
  simp only [executeCells, execute, Option.bind_eq_bind, Option.bind_some, if_neg absent, Option.map_some]
  refine congrArg (fun table => some { f with telegrams := some table }) ?_
  cases column <;> simp [File.rows, Table.addColumn, Table.added, Row.withColumn, Row.update, Function.comp_def]

theorem run_addColumns (castAsText : PyFloat → JsonCell) (f : File Cells) (table : Table Cells)
    (distinct : columns.Nodup) (absent : ∀ column ∈ columns, column ∉ table.columns) :
    run (executeCells castAsText) { f with telegrams := some table } (columns.map .addColumn) =
      some { f with telegrams := some (table.added columns) } := by
  induction columns generalizing table with
  | nil => simp [run, Table.added]
  | cons column columns ih =>
    obtain ⟨fresh, distinct⟩ := List.nodup_cons.mp distinct
    refine run_cons.mpr ⟨_, executeCells_addColumn (absent column List.mem_cons_self), ?_⟩
    rw [ih _ distinct]
    · simp [Table.added, Function.comp_def]
    · intro other mem own
      rcases List.mem_append.mp own with held | new
      · exact absent other (List.mem_cons_of_mem _ mem) held
      · exact fresh (List.mem_singleton.mp new ▸ mem)

theorem run_insertLookups (castAsText : PyFloat → JsonCell) (f : File Cells) {categories : List Category}
    (present : ∀ category ∈ categories, .string category ∈ table.columns) :
    run (executeCells castAsText) { f with telegrams := some table } (categories.map .insertLookup) =
      some { f with
        telegrams := some table
        lookup := f.lookup.insertColumns .sqlite categories table.strings } := by
  induction categories generalizing f with
  | nil => rfl
  | cons category categories ih =>
    have first : executeCells castAsText { f with telegrams := some table } (.insertLookup category) =
        some { f with
          telegrams := some table
          lookup := f.lookup.insertAll .sqlite ((table.strings category).map (category, ·)) } := by
      simp only [executeCells, execute, Option.bind_eq_bind, Option.bind_some,
        if_pos (present category List.mem_cons_self), Option.map_some]
      rfl
    refine run_cons.mpr ⟨_, first, ?_⟩
    exact ih { f with lookup := f.lookup.insertAll .sqlite ((table.strings category).map (category, ·)) }
      fun other mem => present other (List.mem_cons_of_mem _ mem)

theorem run_updateIds (castAsText : PyFloat → JsonCell) {categories : List Category} (held : f.telegrams = some table)
    (present : ∀ category ∈ categories, .string category ∈ table.columns ∧ .id category ∈ table.columns) :
    run (executeCells castAsText) f (categories.map .updateId) =
      some { f with telegrams := some (table.linked f.lookup categories) } := by
  induction categories generalizing f table with
  | nil =>
    rw [List.map_nil, run, Table.linked]
    simp only [List.foldl_nil, List.map_id']
    rw [← held]
  | cons category categories ih =>
    have first : executeCells castAsText f (.updateId category) =
        some { f with telegrams := some (table.linked f.lookup [category]) } := by
      simp only [executeCells, execute, held, Option.bind_eq_bind, Option.bind_some,
        if_pos (present category List.mem_cons_self), Option.map_some]
      rfl
    refine run_cons.mpr ⟨_, first, ?_⟩
    rw [ih rfl]
    · simp [Table.linked, Function.comp_def]
    · exact fun other mem => present other (List.mem_cons_of_mem _ mem)

/-! ## The rebuild -/

/-- The rows of the rebuilt table. -/
def copiedRows (columns : List Column) (rows : List (Row Cells)) : List (Row Cells) :=
  numbered (rows.map fun row => {
    content := row.content.copied columns
    strings := fun _ => none
    ids := fun category => if .id category ∈ columns then row.ids category else none })

/-- What a rebuild leaves of a file. -/
def File.rebuilt (f : File Cells) (columns : List Column) (rows : List (Row Cells)) : File Cells :=
  { f with
    telegrams := some ⟨keepColumns, modelIndexes, copiedRows columns rows⟩
    telegramsOld := none }

theorem run_dropIndexes (names : List String) :
    run (executeCells castAsText) { f with telegrams := some table } (names.map .dropIndex) =
      some { f with telegrams := some { table with indexes := table.indexes.filter (· ∉ names) } } := by
  induction names generalizing table with
  | nil => simp [run]
  | cons name names ih =>
    refine run_cons.mpr ⟨{ f with
      telegrams := some { table with indexes := table.indexes.filter (· ≠ name) } }, rfl, ?_⟩
    rw [ih]
    simp [List.filter_filter, Bool.and_comm]

theorem run_createIndexes_cells (castAsText : PyFloat → JsonCell) (f : File Cells) (table : Table Cells)
    {old : Table Cells} (unindexed : old.indexes = []) {names : List String}
    (distinct : names.Nodup) (absent : ∀ name ∈ names, name ∉ table.indexes) :
    run (executeCells castAsText) { f with telegrams := some table, telegramsOld := some old }
        (names.map .createIndex) =
      some { f with
        telegrams := some { table with indexes := table.indexes ++ names }
        telegramsOld := some old } := by
  induction names generalizing table with
  | nil => simp [run]
  | cons name names ih =>
    obtain ⟨fresh, distinct⟩ := List.nodup_cons.mp distinct
    have free : name ∉ table.indexes ++ (some old.indexes).getD [] := by
      simpa [unindexed] using absent name List.mem_cons_self
    have first : executeCells castAsText { f with telegrams := some table, telegramsOld := some old }
      (.createIndex name) =
        some { f with
          telegrams := some { table with indexes := table.indexes ++ [name] }
          telegramsOld := some old } := by
      simp only [executeCells, execute, Option.bind_eq_bind, Option.bind_some, Option.map_some, if_neg free]
    refine run_cons.mpr ⟨_, first, ?_⟩
    rw [ih _ distinct]
    · simp
    · intro other mem own
      rcases List.mem_append.mp own with held | new
      · exact absent other (List.mem_cons_of_mem _ mem) held
      · exact fresh (List.mem_singleton.mp new ▸ mem)

/-- Rows with their required ids are all copied. -/
theorem executeCells_copyRows (castAsText : PyFloat → JsonCell) (columns : List Column) {old : Table Cells}
    (held : f.telegrams = some table) (empty : table.rows = [])
    (behind : f.telegramsOld = some old) (present : ∀ column ∈ columns, column ∈ old.columns)
    (identified : ∀ row ∈ old.rows, ∀ category ∈ requiredCategories, .id category ∈ columns ∧
    (row.ids category).isSome) :
    executeCells castAsText f (.copyRows columns) =
      some { f with telegrams := some { table with rows := copiedRows columns old.rows } } := by
  have copied : old.rows.mapM (Row.copied columns) = some (old.rows.map fun row =>
      { row with
        strings := fun _ => none
        ids := fun category => if .id category ∈ columns then row.ids category else none }) := by
    refine Sql.mapM_eq_map fun row mem => ?_
    have some_ (category : Category) (own : category ∈ requiredCategories) :
        (if .id category ∈ columns then row.ids category else none).isSome := by
      obtain ⟨held, identified⟩ := identified row mem category own
      rwa [if_pos held]
    exact if_pos ⟨some_ .source (by decide), some_ .destination (by decide), some_ .telegramtype (by decide),
      some_ .direction (by decide)⟩
  simp only [executeCells, execute, held, behind, copied, Option.bind_eq_bind, Option.bind_some, if_pos present,
    Option.map_some, empty, List.nil_append]
  simp [File.withRows, File.rows, copiedRows, Row.update, Function.comp_def]

theorem run_rebuild_cells (castAsText : PyFloat → JsonCell) (f : File Cells) {columns : List Column}
    (present : ∀ column ∈ columns, column ∈ table.columns)
    (identified : ∀ row ∈ table.rows, ∀ category ∈ requiredCategories,
      .id category ∈ columns ∧ (row.ids category).isSome) :
    run (executeCells castAsText) { f with telegrams := some table } (rebuild columns table.indexes) =
      some (f.rebuilt (keepColumns.filter (· ∈ columns)) table.rows) := by
  have bare : { table with indexes := table.indexes.filter (· ∉ table.indexes) } =
      { table with indexes := [] } := by simp
  have unindexed : ({ table with indexes := [] } : Table Cells).indexes = [] := rfl
  have distinct : modelIndexes.Nodup := by decide
  have indexed := run_createIndexes_cells castAsText f (.new []) unindexed distinct (by simp [Table.new])
  have held : ({ f with
      telegrams := some { (Table.new [] : Table Cells) with indexes :=
        (Table.new [] : Table Cells).indexes ++ modelIndexes }
      telegramsOld := some { table with indexes := [] } } : File Cells).telegrams = _ := rfl
  have copied := executeCells_copyRows castAsText (keepColumns.filter (· ∈ columns)) held rfl rfl
    (fun column mem => present column (of_decide_eq_true (List.mem_filter.mp mem).2))
    (fun row mem category own => by
      obtain ⟨held, identified⟩ := identified row mem category own
      refine ⟨List.mem_filter.mpr ⟨?_, decide_eq_true held⟩, identified⟩
      cases category <;> decide)
  unfold rebuild
  simp only [List.append_assoc, List.cons_append, List.nil_append]
  refine run_append.mpr ⟨_, run_dropIndexes table.indexes, ?_⟩
  rw [bare]
  refine run_cons.mpr ⟨_, rfl, run_cons.mpr ⟨_, rfl, run_cons.mpr ⟨_, rfl, run_append.mpr ⟨_, indexed, ?_⟩⟩⟩⟩
  exact run_cons.mpr ⟨_, copied, run_cons.mpr ⟨_, rfl, rfl⟩⟩

/-! ## What the rows say -/

/-- The expected columns that a flat table lacks. -/
def Table.missing (table : Table Cells) : List Column :=
  expectedColumns.filter (· ∉ table.columns ++ categories.map .id)

/-- A flat table when it is renamed. -/
def Table.prepared (lookup : StringLookup) (table : Table Cells) : Table Cells :=
  ((table.added (categories.map .id)).linked lookup categories).added table.missing

theorem mem_categories (category : Category) : category ∈ categories := by
  cases category <;> decide

theorem foldl_withColumn (columns : List Column) (row : Row Cells) :
    (columns.foldl Row.withColumn row).content = columns.foldl Cells.blank row.content ∧
      (columns.foldl Row.withColumn row).strings = row.strings ∧
      ((∀ category, .id category ∉ columns) → (columns.foldl Row.withColumn row).ids = row.ids) := by
  induction columns generalizing row with
  | nil => exact ⟨rfl, rfl, fun _ => rfl⟩
  | cons column columns ih =>
    obtain ⟨content, strings, ids⟩ := ih (row.withColumn column)
    refine ⟨content, strings, fun none_ => ?_⟩
    rw [List.foldl_cons, ids fun category mem => none_ category (List.mem_cons_of_mem _ mem)]
    cases column
    case id category => exact absurd List.mem_cons_self (none_ category)
    all_goals rfl

theorem foldl_linked (lookup : StringLookup) (categories : List Category) (row : Row Cells) :
    (categories.foldl (Row.linked lookup) row).content = row.content ∧
      (categories.foldl (Row.linked lookup) row).strings = row.strings ∧
      ∀ category ∈ categories, (categories.foldl (Row.linked lookup) row).ids category =
        row.linkedId lookup category := by
  suffices all : (categories.foldl (Row.linked lookup) row).content = row.content ∧
      (categories.foldl (Row.linked lookup) row).strings = row.strings ∧
      ∀ category, (categories.foldl (Row.linked lookup) row).ids category =
        if category ∈ categories then row.linkedId lookup category else row.ids category by
    refine ⟨all.1, all.2.1, fun category mem => ?_⟩
    rw [all.2.2, if_pos mem]
  induction categories generalizing row with
  | nil => exact ⟨rfl, rfl, fun _ => rfl⟩
  | cons first categories ih =>
    obtain ⟨content, strings, ids⟩ := ih (row.linked lookup first)
    refine ⟨content, strings, fun category => ?_⟩
    have linked : (row.linked lookup first).linkedId lookup category = row.linkedId lookup category := rfl
    rw [List.foldl_cons, ids, linked]
    by_cases same : category = first
    · subst same
      simp [Row.linked]
    · simp [same, Row.linked]

/-- A cell is blank in the columns that have been blanked, and only there. -/
theorem foldl_blank (columns : List Column) (cells : Cells) :
    (columns.foldl Cells.blank cells).dptMain = (if .dptMain ∈ columns then none else cells.dptMain) ∧
      (columns.foldl Cells.blank cells).dptSub = (if .dptSub ∈ columns then none else cells.dptSub) ∧
      (columns.foldl Cells.blank cells).valueNumeric = (if .valueNumeric ∈ columns then none else cells.valueNumeric) ∧
      (columns.foldl Cells.blank cells).rawData = if .rawData ∈ columns then none else cells.rawData := by
  induction columns generalizing cells with
  | nil => exact ⟨rfl, rfl, rfl, rfl⟩
  | cons column columns ih =>
    rw [List.foldl_cons]
    obtain ⟨dptMain, dptSub, valueNumeric, rawData⟩ := ih (cells.blank column)
    rw [dptMain, dptSub, valueNumeric, rawData]
    cases column <;> simp [Cells.blank]

/-- The row that is copied of a flat one. -/
def Row.copiedOf (lookup : StringLookup) (table : Table Cells) (row : Row Cells) : Row Cells where
  content := (table.missing.foldl Cells.blank row.content).copied
    (keepColumns.filter (· ∈ (table.prepared lookup).columns))
  strings _ := none
  ids category := row.linkedId lookup category

theorem columns_prepared (lookup : StringLookup) (table : Table Cells) :
    (table.prepared lookup).columns = table.columns ++ categories.map .id ++ table.missing := rfl

theorem unidentified_missing (table : Table Cells) (category : Category) : .id category ∉ table.missing := by
  intro mem
  have expected : .id category ∈ expectedColumns := List.mem_of_mem_filter mem
  simp [expectedColumns] at expected

/-- A row of a flat table when it is renamed. -/
def Row.prepared (lookup : StringLookup) (table : Table Cells) (row : Row Cells) : Row Cells :=
  table.missing.foldl Row.withColumn
    (categories.foldl (Row.linked lookup) ((categories.map .id).foldl Row.withColumn row))

theorem rows_prepared (lookup : StringLookup) (table : Table Cells) :
    (table.prepared lookup).rows = table.rows.map (Row.prepared lookup table) := by
  simp only [Table.prepared, Table.added, Table.linked, List.map_map, Function.comp_def]
  rfl

theorem prepared_cells (lookup : StringLookup) (table : Table Cells) (row : Row Cells) :
    (row.prepared lookup table).content = table.missing.foldl Cells.blank row.content ∧
      ∀ category, (row.prepared lookup table).ids category = row.linkedId lookup category := by
  obtain ⟨content₁, strings₁, _⟩ := foldl_withColumn (categories.map .id) row
  obtain ⟨content₂, _, ids₂⟩ := foldl_linked lookup categories ((categories.map .id).foldl Row.withColumn row)
  obtain ⟨content₃, _, ids₃⟩ := foldl_withColumn table.missing
    (categories.foldl (Row.linked lookup) ((categories.map .id).foldl Row.withColumn row))
  have blank : (categories.map Column.id).foldl Cells.blank row.content = row.content := rfl
  refine ⟨?_, fun category => ?_⟩
  · rw [Row.prepared, content₃, content₂, content₁, blank]
  · rw [Row.prepared, ids₃ (unidentified_missing table), ids₂ category (mem_categories category),
      Row.linkedId, strings₁]
    rfl

theorem identified_prepared (lookup : StringLookup) (table : Table Cells) (category : Category) :
    .id category ∈ (table.prepared lookup).columns := by
  rw [columns_prepared]
  exact List.mem_append_left _ (List.mem_append_right _ (List.mem_map_of_mem (mem_categories category)))

theorem copiedRows_prepared (lookup : StringLookup) (table : Table Cells) :
    copiedRows (keepColumns.filter (· ∈ (table.prepared lookup).columns)) (table.prepared lookup).rows =
      numbered (table.rows.map (Row.copiedOf lookup table)) := by
  have identified (category : Category) : .id category ∈ keepColumns.filter (· ∈ (table.prepared lookup).columns) := by
    refine List.mem_filter.mpr ⟨?_, decide_eq_true (identified_prepared lookup table category)⟩
    cases category <;> decide
  rw [copiedRows, rows_prepared, List.map_map]
  refine congrArg numbered (List.map_congr_left fun row _ => ?_)
  obtain ⟨content, ids⟩ := prepared_cells lookup table row
  simp only [Function.comp_apply, Row.copiedOf, content, identified, if_true, ids]

/-- Of the columns that a row says something in, those are blank behind the
rebuild that were not there before it. -/
theorem blanked_iff (lookup : StringLookup) (table : Table Cells) (kept : column ∈ keepColumns)
    (cell : ∀ category, column ≠ .id category) :
    (column ∈ keepColumns.filter (· ∉ keepColumns.filter (· ∈ (table.prepared lookup).columns)) ∨
    column ∈ table.missing) ↔
      column ∉ table.columns := by
  have other : column ∉ categories.map Column.id := by
    intro mem
    obtain ⟨category, _, same⟩ := List.mem_map.mp mem
    exact cell category same.symm
  have missing : column ∈ table.missing ↔ column ∈ expectedColumns ∧ column ∉ table.columns := by
    simp only [Table.missing, List.mem_filter, List.mem_append, other, or_false, decide_eq_true_eq]
  simp only [List.mem_filter, kept, columns_prepared, List.mem_append, other, or_false, missing, true_and,
    decide_eq_true_eq]
  tauto

theorem cells_copiedOf (lookup : StringLookup) (table : Table Cells) (row : Row Cells) :
    (row.copiedOf lookup table).content.dptMain = (if .dptMain ∈ table.columns then row.content.dptMain else none) ∧
      (row.copiedOf lookup table).content.dptSub = (if .dptSub ∈ table.columns then row.content.dptSub else none) ∧
      (row.copiedOf lookup table).content.valueNumeric =
        (if .valueNumeric ∈ table.columns then row.content.valueNumeric else none) ∧
      (row.copiedOf lookup table).content.rawData =
        (if .rawData ∈ table.columns then row.content.rawData else none) := by
  obtain ⟨dptMain, dptSub, valueNumeric, rawData⟩ := foldl_blank table.missing row.content
  obtain ⟨dptMain', dptSub', valueNumeric', rawData'⟩ := foldl_blank
    (keepColumns.filter (· ∉ keepColumns.filter (· ∈ (table.prepared lookup).columns)))
    (table.missing.foldl Cells.blank row.content)
  have cell {α : Type} {column : Column} (value : Option α) (kept : column ∈ keepColumns)
      (other : ∀ category, column ≠ .id category) :
      (if column ∈ keepColumns.filter (· ∉ keepColumns.filter (· ∈ (table.prepared lookup).columns)) then none
        else if column ∈ table.missing then none else value) = if column ∈ table.columns then value else none := by
    have blanked := blanked_iff lookup table kept other
    by_cases own : column ∈ table.columns
    · have unblanked := mt blanked.mp (not_not.mpr own)
      rw [not_or] at unblanked
      rw [if_neg unblanked.1, if_neg unblanked.2, if_pos own]
    · rw [if_neg own]
      rcases blanked.mpr own with first | second
      · exact if_pos first
      · rw [if_pos second, ite_self]
  simp only [Row.copiedOf, Cells.copied, dptMain', dptMain, dptSub', dptSub, valueNumeric', valueNumeric,
    rawData', rawData]
  exact ⟨cell _ (by decide) nofun, cell _ (by decide) nofun, cell _ (by decide) nofun, cell _ (by decide) nofun⟩

/-- It says what it said. The lookups of before do not matter to a flat row. -/
theorem resolved_copiedOf (flat : ∀ category, .string category ∈ table.columns) (before : StringLookup)
    (named : ∀ category value, row.strings category = some value → ∃ id, lookup.idOf (category, value) = some id) :
    (row.copiedOf lookup table).resolved keepColumns lookup = row.resolved table.columns before := by
  have string (category : Category) :
    (if .string category ∈ keepColumns then (row.copiedOf lookup table).strings category
      else if .id category ∈ keepColumns then
        ((row.copiedOf lookup table).ids category).bind (lookup.stringOf category)
      else none) = row.strings category := by
    have gone : Column.string category ∉ keepColumns := by cases category <;> decide
    have identified : Column.id category ∈ keepColumns := by cases category <;> decide
    simp only [if_neg gone, if_pos identified, Row.copiedOf, Row.linkedId]
    cases own : row.strings category with
    | none => rfl
    | some value =>
      obtain ⟨id, found⟩ := named category value own
      rw [Option.bind_some, found, Option.bind_some, Sql.stringOf_idOf found]
  have kept : ∀ column ∈ [Column.dptMain, .dptSub, .valueNumeric, .rawData], column ∈ keepColumns := by decide
  obtain ⟨dptMain, dptSub, valueNumeric, rawData⟩ := cells_copiedOf lookup table row
  simp only [Row.resolved, string, flat, if_true, dptMain, dptSub, valueNumeric, rawData, kept .dptMain (by decide),
    kept .dptSub (by decide), kept .valueNumeric (by decide), kept .rawData (by decide)]

/-- A rewrite of the cells that a row says nothing in. -/
structure Spares (rewrite : Cells → Cells) : Prop where
  dptMain : ∀ cells, (rewrite cells).dptMain = cells.dptMain
  dptSub : ∀ cells, (rewrite cells).dptSub = cells.dptSub
  valueNumeric : ∀ cells, (rewrite cells).valueNumeric = cells.valueNumeric
  rawData : ∀ cells, (rewrite cells).rawData = cells.rawData

theorem resolved_update {rewrite : Cells → Cells} (spares : Spares rewrite) (columns : List Column)
    (lookup : StringLookup) (row : Row Cells) :
    (row.update rewrite).resolved columns lookup = row.resolved columns lookup := by
  simp only [Row.resolved, Row.update, spares.dptMain, spares.dptSub, spares.valueNumeric, spares.rawData]

theorem spares_recovered (castAsText : PyFloat → JsonCell) : Spares (Cells.recovered castAsText) := by
  constructor <;> intro cells <;> unfold Cells.recovered <;> split <;> first | rfl | split <;> rfl

theorem spares_unwrapped (real : Reals) : Spares (Cells.unwrapped real) := by
  constructor <;> intro cells <;> unfold Cells.unwrapped <;> split <;> rfl

theorem resolved_map {rewrite : Cells → Cells} (spares : Spares rewrite) (columns : List Column)
    (lookup : StringLookup) (rows : List (Row Cells)) :
    (rows.map (Row.update rewrite)).map (Row.resolved columns lookup) = rows.map (Row.resolved columns lookup) := by
  rw [List.map_map]
  exact List.map_congr_left fun row _ => resolved_update spares columns lookup row

theorem resolved_numbered (columns : List Column) (lookup : StringLookup) (rows : List (Row Cells)) :
    (numbered rows).map (Row.resolved columns lookup) = rows.map (Row.resolved columns lookup) := by
  refine List.ext_getElem (by simp [numbered]) fun i _ _ => ?_
  rw [List.getElem_map, List.getElem_map]
  simp only [numbered, List.getElem_mapIdx]
  exact resolved_update ⟨fun _ => rfl, fun _ => rfl, fun _ => rfl, fun _ => rfl⟩ columns lookup _

/-! ## The upgrade -/

/-- The statements of the upgrade, where all six columns are there. -/
theorem upgradeSchema_flat (lookup : StringLookup) (flat : table.Flat)
    (all : ∀ category, .string category ∈ table.columns)
    (nullsRecovered : Bool) : Sqlite.upgradeSchema table nullsRecovered =
      (categories.map .insertLookup ++ ((categories.map .id).map .addColumn ++ (categories.map .updateId ++
        table.missing.map .addColumn))) ++ (rebuild (table.prepared lookup).columns (table.prepared lookup).indexes ++
          recoverNulls nullsRecovered (table.prepared lookup).columns) := by
  have legacy : ∃ column ∈ table.columns, column ∈ legacyColumns := ⟨_, all .source, by decide⟩
  have present : categories.filter (.string · ∈ table.columns) = categories :=
    List.filter_eq_self.mpr fun category _ => decide_eq_true (all category)
  have absent : categories.filter (.id · ∉ table.columns) = categories :=
    List.filter_eq_self.mpr fun category _ => decide_eq_true (flat.unnormalized category)
  simp only [Sqlite.upgradeSchema, migrateStrings, if_pos (all .source), if_pos legacy, present, absent,
    columns_prepared, List.append_assoc, List.map_map]
  rfl

/-- The lookups of a flat table. -/
def Table.interned (lookup : StringLookup) (table : Table Cells) : StringLookup :=
  lookup.insertColumns .sqlite categories table.strings

theorem idOf_interned (lookup : StringLookup) (mem : row ∈ table.rows) {value : String}
    (own : row.strings category = some value) : ∃ id, (table.interned lookup).idOf (category, value) = some id := by
  apply Sql.idOf_insertColumns .sqlite lookup (mem_categories category)
  exact List.mem_dedup.mpr (List.mem_filterMap.mpr ⟨row, mem, own⟩)

/-- The statements ahead of the rebuild. -/
theorem run_prepare (castAsText : PyFloat → JsonCell) (f : File Cells) (flat : table.Flat)
    (all : ∀ category, .string category ∈ table.columns) :
    run (executeCells castAsText) { f with telegrams := some table }
        (categories.map .insertLookup ++ ((categories.map .id).map .addColumn ++ (categories.map .updateId ++
          table.missing.map .addColumn))) =
      some { f with
        telegrams := some (table.prepared (table.interned f.lookup))
        lookup := table.interned f.lookup } := by
  have present : ∀ category ∈ categories, .string category ∈ table.columns := fun category _ => all category
  have interned := run_insertLookups castAsText f present
  have distinct : (categories.map Column.id).Nodup := by decide
  have unnormalized : ∀ column ∈ categories.map Column.id, column ∉ table.columns := by
    intro column mem
    obtain ⟨category, _, rfl⟩ := List.mem_map.mp mem
    exact flat.unnormalized category
  have identified := run_addColumns castAsText { f with lookup := table.interned f.lookup } table distinct unnormalized
  have named : ∀ category ∈ categories, .string category ∈ (table.added (categories.map .id)).columns ∧
      .id category ∈ (table.added (categories.map .id)).columns := fun category mem =>
    ⟨List.mem_append_left _ (all category), List.mem_append_right _ (List.mem_map_of_mem mem)⟩
  have held : ({ f with
      telegrams := some (table.added (categories.map .id))
      lookup := table.interned f.lookup } : File Cells).telegrams = some (table.added (categories.map .id)) := rfl
  have linked := run_updateIds castAsText held named
  have expected : table.missing.Nodup := List.Nodup.filter _ (by decide)
  have completed := run_addColumns castAsText { f with lookup := table.interned f.lookup }
    ((table.added (categories.map .id)).linked (table.interned f.lookup) categories) expected
    fun column mem => of_decide_eq_true (List.mem_filter.mp mem).2
  refine run_append.mpr ⟨_, interned, run_append.mpr ⟨_, identified, run_append.mpr ⟨_, linked, ?_⟩⟩⟩
  exact completed

theorem run_recoverNulls_cells (castAsText : PyFloat → JsonCell) {nullsRecovered : Bool} (table : Table Cells)
    (columns : List Column) (set : f.nullsRecovered = nullsRecovered) :
    ∃ rows, run (executeCells castAsText) { f with telegrams := some table } (recoverNulls nullsRecovered columns) =
        some { f with telegrams := some { table with rows }, nullsRecovered := true } ∧
      ∀ columns lookup, rows.map (Row.resolved columns lookup) = table.rows.map (Row.resolved columns lookup) := by
  unfold recoverNulls
  split
  · rename_i flagged
    subst flagged
    refine ⟨table.rows, ?_, fun _ _ => rfl⟩
    rw [run, ← set]
  · split
    · exact ⟨_, rfl, fun columns lookup => resolved_map (spares_recovered castAsText) columns lookup table.rows⟩
    · exact ⟨_, rfl, fun _ _ => rfl⟩

/-- What a run of them leaves. -/
theorem run_flat (castAsText : PyFloat → JsonCell) (f : File Cells) (flat : table.Flat)
    (all : ∀ category, .string category ∈ table.columns) :
    ∃ after table', run (executeCells castAsText) { f with telegrams := some table }
        (Sqlite.upgradeSchema table f.nullsRecovered) = some after ∧
      after.telegrams = some table' ∧ table'.columns = keepColumns ∧
      table'.resolved after.lookup = table.resolved f.lookup ∧ after.nullsRecovered = true := by
  have prepared := run_prepare castAsText f flat all
  have identified : ∀ row ∈ (table.prepared (table.interned f.lookup)).rows, ∀ category ∈ requiredCategories,
      .id category ∈ (table.prepared (table.interned f.lookup)).columns ∧ (row.ids category).isSome := by
    intro row mem category own
    rw [rows_prepared] at mem
    obtain ⟨origin, held, rfl⟩ := List.mem_map.mp mem
    obtain ⟨value, string⟩ := Option.isSome_iff_exists.mp (flat.nonNull origin held category own)
    obtain ⟨id, found⟩ := idOf_interned f.lookup held string
    refine ⟨identified_prepared _ table category, ?_⟩
    rw [(prepared_cells _ table origin).2, Row.linkedId, string, Option.bind_some, found]
    rfl
  have rebuilt := run_rebuild_cells castAsText { f with lookup := table.interned f.lookup }
    (fun column mem => mem) identified
  have flag : ({ f with lookup := table.interned f.lookup, telegramsOld := none } : File Cells).nullsRecovered =
      f.nullsRecovered := rfl
  obtain ⟨rows, recovered, same⟩ := run_recoverNulls_cells castAsText
    ⟨keepColumns, modelIndexes, copiedRows
      (keepColumns.filter (· ∈ (table.prepared (table.interned f.lookup)).columns))
      (table.prepared (table.interned f.lookup)).rows⟩ (table.prepared (table.interned f.lookup)).columns flag
  have ran : run (executeCells castAsText) { f with telegrams := some table }
      (Sqlite.upgradeSchema table f.nullsRecovered) = some { f with
        telegrams := some ⟨keepColumns, modelIndexes, rows⟩
        telegramsOld := none
        lookup := table.interned f.lookup
        nullsRecovered := true } := by
    rw [upgradeSchema_flat (table.interned f.lookup) flat all]
    exact run_append.mpr ⟨_, prepared, run_append.mpr ⟨_, rebuilt, recovered⟩⟩
  refine ⟨_, _, ran, rfl, rfl, ?_, rfl⟩
  rw [Table.resolved, same, copiedRows_prepared, resolved_numbered, List.map_map]
  refine List.map_congr_left fun row mem => ?_
  exact resolved_copiedOf all f.lookup fun category value own => idOf_interned f.lookup mem own

/-! ## The upgrade of a file -/

theorem run_execute (db : Database) (ran : run (executeCells host.castAsText) db.file statements = some f) :
    ∃ after, run (Database.execute host) db statements = some after ∧ after.file = f := by
  induction statements generalizing db with
  | nil =>
    cases ran
    exact ⟨db, rfl, rfl⟩
  | cons statement statements ih =>
    obtain ⟨next, taken, ran⟩ := run_cons.mp ran
    have executed : ∃ middle, db.execute host statement = some middle ∧ middle.file = next := by
      unfold Database.execute
      rw [taken]
      exact ⟨_, rfl, rfl⟩
    obtain ⟨middle, executed, rfl⟩ := executed
    obtain ⟨after, ran, same⟩ := ih middle ran
    exact ⟨after, run_cons.mpr ⟨middle, executed, ran⟩, same⟩

/-- A table of the model with both flags set is not touched again. -/
theorem upgradeSchema_idle (held : db.file.telegrams = some table) (modern : Modern table.columns)
    (recovered : db.file.nullsRecovered = true) (unwrapped : db.file.dataUnwrapped = true)
    (present : db.lastGa.isSome) :
    db.upgradeSchema host = some db := by
  have created : db.execute host .createAll = some db := createAll_present held present
  simp only [Database.upgradeSchema, Option.bind_eq_bind, created, Option.bind_some, held, upgradeSchema_modern modern,
    recovered, recoverNulls, if_true, run, unwrapped]
  rfl

theorem flat_upgrade_preserves (host : Host) (held : db.file.telegrams = some table) (flat : table.Flat)
    (all : ∀ category, .string category ∈ table.columns) : UpgradePreserves host db := by
  obtain ⟨created, creating, file⟩ : ∃ created, db.execute host .createAll = some created ∧
      created.file = { db.file with telegrams := some table } := by
    refine ⟨_, rfl, ?_⟩
    rw [held]
    rfl
  obtain ⟨next, table', ran, present, columns, resolved, recovered⟩ :=
    run_flat host.castAsText db.file flat all
  obtain ⟨upgraded, ran', rfl⟩ := run_execute created (file ▸ ran)
  have lastGa : upgraded.lastGa.isSome := by
    refine lastGa_run ran' ?_
    cases creating
    rfl
  have createdTable : created.file.telegrams = some table := by rw [file]
  have createdFlag : created.file.nullsRecovered = db.file.nullsRecovered := by rw [file]
  have before : db.resolved = some (table.resolved db.file.lookup) := by rw [Database.resolved, held, Option.map_some]
  have first : db.upgradeSchema host = if upgraded.file.dataUnwrapped then some upgraded
      else some { upgraded with
        file := { upgraded.file.withRows (upgraded.rows.map (Row.update (Cells.unwrapped host.real))) with
          dataUnwrapped := true } } := by
    simp only [Database.upgradeSchema, Option.bind_eq_bind, creating, createdTable, createdFlag, ran', Option.bind_some]
    rfl
  rw [UpgradePreserves, first, before]
  by_cases unwrapped : upgraded.file.dataUnwrapped = true
  · rw [if_pos unwrapped]
    refine ⟨upgraded, rfl, ?_, upgradeSchema_idle present (columns ▸ modern_keepColumns) recovered unwrapped lastGa⟩
    rw [Database.resolved, present, Option.map_some, resolved]
  · rw [if_neg unwrapped]
    have rows : upgraded.rows = table'.rows := by simp [Database.rows, File.rows, present]
    have rewritten : (upgraded.file.withRows (upgraded.rows.map (Row.update (Cells.unwrapped host.real)))).telegrams =
        some { table' with rows := table'.rows.map (Row.update (Cells.unwrapped host.real)) } := by
      simp [File.withRows, present, rows]
    refine ⟨_, rfl, ?_, upgradeSchema_idle rewritten (columns ▸ modern_keepColumns) recovered rfl lastGa⟩
    rw [← resolved, Table.resolved, ← resolved_map (spares_unwrapped host.real)]
    simp [Database.resolved, File.withRows, present, rows, Table.resolved]

/-! ## The columns that the UPDATE names -/

/-- A statement of the migration of strings. -/
def Statement.Interns : Statement → Prop
  | .insertLookup _ | .updateId _ | .addColumn (.id _) => True
  | _ => False

theorem interns_migrateStrings (columns : List Column) : ∀ statement ∈ migrateStrings columns, statement.Interns := by
  intro statement mem
  simp only [migrateStrings, List.mem_append, List.mem_map] at mem
  rcases mem with (⟨category, _, rfl⟩ | ⟨category, _, rfl⟩) | ⟨category, _, rfl⟩ <;> trivial

/-- It brings no string column into the table. -/
theorem string_of_interns (interns : ∀ statement ∈ statements, statement.Interns)
    (ran : run (Database.execute host) db statements = some db') {after : List Column}
    (held : db'.file.columns = some after) (own : .string category ∈ after) :
    ∃ before, db.file.columns = some before ∧ .string category ∈ before := by
  induction statements generalizing db with
  | nil =>
    cases ran
    exact ⟨after, held, own⟩
  | cons statement statements ih =>
    obtain ⟨next, taken, ran⟩ := run_cons.mp ran
    obtain ⟨middle, held', own'⟩ := ih (fun other mem => interns other (List.mem_cons_of_mem _ mem)) ran
    have first := interns statement List.mem_cons_self
    have same := columns_step taken
    rw [held'] at same
    cases statement
    case insertLookup | updateId => exact ⟨middle, same.symm, own'⟩
    case addColumn column =>
      obtain ⟨before, columns, rfl⟩ := Option.map_eq_some_iff.mp same.symm
      refine ⟨before, columns, ?_⟩
      rcases List.mem_append.mp own' with old | new
      · exact old
      · cases List.mem_singleton.mp new
        exact first.elim
    all_goals exact first.elim

/-- An upgrade that returns has found all of them. -/
theorem strings_of_upgrade (held : db.file.telegrams = some table) (flat : .string .source ∈ table.columns)
    (done : db.upgradeSchema host = some db') (category : Category) : .string category ∈ table.columns := by
  simp only [Database.upgradeSchema, Option.bind_eq_bind, Option.bind_eq_some_iff] at done
  obtain ⟨created, creating, table', present, upgraded, upgrading, _⟩ := done
  have columns : created.file.columns = some table.columns := by
    rw [columns_step creating, File.columns, held]
    rfl
  have same : table'.columns = table.columns := by
    rw [File.columns, present] at columns
    exact Option.some.inj columns
  obtain ⟨rest, shape⟩ : ∃ rest, Sqlite.upgradeSchema table' created.file.nullsRecovered =
      migrateStrings table'.columns ++ rest := by
    simp only [Sqlite.upgradeSchema, same, if_pos flat, List.append_assoc]
    exact ⟨_, rfl⟩
  have issued : .updateId category ∈ migrateStrings table'.columns :=
    List.mem_append_right _ (List.mem_map_of_mem (mem_categories category))
  obtain ⟨before, after, split⟩ := List.append_of_mem issued
  have interns := interns_migrateStrings table'.columns
  rw [shape, split, List.append_assoc] at upgrading
  rw [split] at interns
  obtain ⟨middle, ran, upgrading⟩ := run_append.mp upgrading
  obtain ⟨next, taken, _⟩ := run_cons.mp upgrading
  obtain ⟨file, executed, _⟩ := Option.map_eq_some_iff.mp taken
  obtain ⟨file', executed, _⟩ := Option.map_eq_some_iff.mp executed
  obtain ⟨named, present', executed⟩ := Option.bind_eq_some_iff.mp executed
  obtain ⟨⟨own, _⟩, _⟩ := Option.ite_none_right_eq_some.mp executed
  have found : middle.file.columns = some named.columns := by rw [File.columns, present', Option.map_some]
  obtain ⟨columns', first, own'⟩ := string_of_interns
    (fun statement mem => interns statement (List.mem_append_left _ mem)) ran found own
  cases columns.symm.trans first
  exact own'

/-- **Which flat tables SQLite upgrades**: those with both columns of names.
Then every row says what it said, and a second upgrade changes nothing. -/
theorem flat_upgrade_iff (host : Host) (held : db.file.telegrams = some table) (flat : table.Flat) :
    UpgradePreserves host db ↔ .string .sourceName ∈ table.columns ∧ .string .destinationName ∈ table.columns := by
  constructor
  · rintro ⟨after, done, _⟩
    have strings := strings_of_upgrade held (flat.required .source (by decide)) done
    exact ⟨strings .sourceName, strings .destinationName⟩
  · rintro ⟨sourceName, destinationName⟩
    apply flat_upgrade_preserves host held flat
    intro category
    cases category with
    | source | destination | telegramtype | direction => exact flat.required _ (by decide)
    | sourceName => exact sourceName
    | destinationName => exact destinationName

end KnxTelegramStore.Sqlite
