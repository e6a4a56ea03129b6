import KnxTelegramStore.Sqlite.Rebuild
import KnxTelegramStore.Sqlite.Startup

/-!
What `Database.upgradeSchema` leaves of any file: the columns of the model, its
two flags set, and a destination in every row (`normalized_upgradeSchema`).
-/
namespace KnxTelegramStore.Sqlite
open EventMachine

variable {host : Host} {db db' : Database} {f f' : File Cells} {statement : Statement} {statements : List Statement}
variable {castAsText : PyFloat → JsonCell} {rows rows' : List (Row Cells)}

/-! ## The columns of `telegrams` -/

def File.columns {α : Type} (f : File α) : Option (List Column) := f.telegrams.map Table.columns

/-- What a statement does to the columns. -/
def columnsAfter (columns : Option (List Column)) : Statement → Option (List Column)
  | .createAll => some (columns.getD keepColumns)
  | .addColumn column => columns.map (· ++ [column])
  | .renameTelegrams => none
  | .createTelegrams => some keepColumns
  | _ => columns

@[simp] theorem columns_withRows (f : File Cells) (rows : List (Row Cells)) :
    (f.withRows rows).columns = f.columns := by
  simp [File.columns, File.withRows, Function.comp_def]

@[simp] theorem indexes_withRows (f : File Cells) (rows : List (Row Cells)) :
    (f.withRows rows).indexes = f.indexes := by
  simp [File.indexes, File.withRows, Function.comp_def]

theorem rows_withRows (held : f.telegrams.isSome ∨ rows = []) : (f.withRows rows).rows = rows := by
  cases at_ : f.telegrams with
  | none =>
    have empty := held.resolve_left (by simp [at_])
    simp [File.rows, File.withRows, at_, empty]
  | some table => simp [File.rows, File.withRows, at_]

theorem ids_withRows (same : rows.map Row.ids = f.rows.map Row.ids) :
    (f.withRows rows).rows.map Row.ids = f.rows.map Row.ids := by
  rw [rows_withRows, same]
  cases at_ : f.telegrams with
  | none =>
    have empty : rows.map Row.ids = [] := by simpa [File.rows, at_] using same
    exact .inr (List.map_eq_nil_iff.mp empty)
  | some table => exact .inl rfl

theorem columns_execute {α : Type} {f f' : File α} (done : execute f statement = some f') :
    f'.columns = columnsAfter f.columns statement := by
  cases statement with
  | createAll =>
    cases done
    cases at_ : f.telegrams <;> simp [File.columns, columnsAfter, at_, Table.new]
  | insertLookup | updateId =>
    obtain ⟨table, held, done⟩ := Option.bind_eq_some_iff.mp done
    split at done
    · cases done
      simp [File.columns, columnsAfter, held, Table.updateId]
    · cases done
  | addColumn column =>
    obtain ⟨table, held, done⟩ := Option.bind_eq_some_iff.mp done
    split at done
    · cases done
    · cases done
      simp [File.columns, columnsAfter, held, Table.addColumn]
  | dropIndex name =>
    cases done
    simp [File.columns, columnsAfter, Function.comp_def]
  | dropOldIfExists | setNullsRecovered | setDataUnwrapped =>
    cases done
    rfl
  | renameTelegrams | createTelegrams | dropOld =>
    simp only [execute] at done
    split at done
    · cases done
      rfl
    · cases done
  | createIndex name =>
    obtain ⟨table, held, done⟩ := Option.bind_eq_some_iff.mp done
    split at done
    · cases done
    · cases done
      simp [File.columns, columnsAfter, held]
  | copyRows columns =>
    obtain ⟨table, held, done⟩ := Option.bind_eq_some_iff.mp done
    obtain ⟨old, _, done⟩ := Option.bind_eq_some_iff.mp done
    obtain ⟨rows, _, done⟩ := Option.bind_eq_some_iff.mp done
    split at done
    · cases done
      simp [File.columns, columnsAfter, held]
    · cases done
  | recoverNulls | unwrapRow =>
    obtain ⟨_, _, rfl⟩ := Option.map_eq_some_iff.mp done
    rfl

theorem ids_numbered (rows : List (Row Cells)) : (numbered rows).map Row.ids = rows.map Row.ids := by
  refine List.ext_getElem (by simp [numbered]) fun i _ _ => ?_
  simp [numbered, Row.update]

/-- The statement itself, and then its cells. -/
theorem executeCells_some (done : executeCells castAsText f statement = some f') :
    ∃ middle, execute f statement = some middle ∧ (f' = middle ∨ ∃ rows : List (Row Cells),
      f' = middle.withRows rows ∧ rows.map Row.ids = middle.rows.map Row.ids) := by
  obtain ⟨middle, executed, rfl⟩ := Option.map_eq_some_iff.mp done
  refine ⟨middle, executed, ?_⟩
  cases statement
  case addColumn | recoverNulls => exact .inr ⟨_, rfl, by simp [Row.update, Function.comp_def]⟩
  case copyRows columns => exact .inr ⟨_, rfl, by simp [ids_numbered, Row.update, Function.comp_def]⟩
  all_goals exact .inl rfl

theorem columns_step (taken : db.execute host statement = some db') :
    db'.file.columns = columnsAfter db.file.columns statement := by
  obtain ⟨file, done, rfl⟩ := Option.map_eq_some_iff.mp taken
  obtain ⟨middle, executed, rfl | ⟨rows, rfl, _⟩⟩ := executeCells_some done
  · exact columns_execute executed
  · exact (columns_withRows middle rows).trans (columns_execute executed)

theorem columns_run (ran : run (Database.execute host) db statements = some db') :
    db'.file.columns = statements.foldl columnsAfter db.file.columns :=
  run_view (v := fun db => db.file.columns) (fun _ _ _ taken => columns_step taken) ran

theorem foldl_columnsAfter (same : ∀ statement ∈ statements, ∀ columns, columnsAfter columns statement = columns)
    (columns : Option (List Column)) : statements.foldl columnsAfter columns = columns := by
  induction statements with
  | nil => rfl
  | cons statement rest ih =>
    rw [List.foldl_cons, same statement List.mem_cons_self, ih fun other mem => same other (List.mem_cons_of_mem _ mem)]

theorem foldl_addColumn (columns added : List Column) :
    (added.map Statement.addColumn).foldl columnsAfter (some columns) = some (columns ++ added) := by
  induction added generalizing columns with
  | nil => simp
  | cons column added ih =>
    rw [List.map_cons, List.foldl_cons]
    refine (ih (columns ++ [column])).trans ?_
    rw [List.append_assoc, List.singleton_append]

/-- The rebuild leaves the columns of the model. -/
theorem foldl_rebuild (columns : List Column) (indexes : List String) (before : Option (List Column)) :
    (rebuild columns indexes).foldl columnsAfter before = some keepColumns := by
  have drops : (indexes.map Statement.dropIndex).foldl columnsAfter before = before := by
    refine foldl_columnsAfter (fun statement mem columns => ?_) before
    obtain ⟨name, _, rfl⟩ := List.mem_map.mp mem
    rfl
  rw [rebuild]
  simp only [List.foldl_append, drops]
  rfl

/-- `telegrams` has no legacy column, and every expected one. -/
def Modern (columns : List Column) : Prop :=
  (∀ column ∈ legacyColumns, column ∉ columns) ∧ ∀ column ∈ expectedColumns, column ∈ columns

theorem modern_keepColumns : Modern keepColumns := by
  constructor <;> decide

/-- The columns an upgrade leaves. -/
theorem foldl_upgradeSchema {α : Type} (table : Table α) (nullsRecovered : Bool) :
    ∃ columns, (upgradeSchema table nullsRecovered).foldl columnsAfter (some table.columns) = some columns ∧
      Modern columns := by
  have recovers (columns : List Column) (before : Option (List Column)) :
      (recoverNulls nullsRecovered columns).foldl columnsAfter before = before := by
    refine foldl_columnsAfter (fun statement mem columns => ?_) before
    unfold recoverNulls at mem
    split at mem
    · cases mem
    · rcases List.mem_append.mp mem with recovering | flag
      · split at recovering
        · cases List.mem_singleton.mp recovering
          rfl
        · cases recovering
      · cases List.mem_singleton.mp flag
        rfl
  unfold upgradeSchema
  simp only [List.foldl_append, recovers]
  by_cases legacy : ∃ column ∈ table.columns, column ∈ legacyColumns
  · rw [if_pos legacy, foldl_rebuild]
    exact ⟨keepColumns, rfl, modern_keepColumns⟩
  · have flat : Column.string .source ∉ table.columns := fun own => legacy ⟨_, own, by decide⟩
    rw [if_neg legacy, if_neg flat, if_neg flat, List.foldl_nil, List.foldl_nil, foldl_addColumn]
    refine ⟨_, rfl, fun column old mem => ?_, fun column expected => ?_⟩
    · rcases List.mem_append.mp mem with own | added
      · exact legacy ⟨column, own, old⟩
      · have apart : ∀ column ∈ legacyColumns, column ∉ expectedColumns := by decide
        exact apart column old (List.mem_of_mem_filter added)
    · by_cases own : column ∈ table.columns
      · exact List.mem_append_left _ own
      · exact List.mem_append_right _ (List.mem_filter.mpr ⟨expected, decide_eq_true own⟩)

/-! ## The ids of its rows -/

def DestinationsHeld {α : Type} (rows : List (Row α)) : Prop := ∀ row ∈ rows, (row.ids .destination).isSome

theorem destinationsHeld_of_ids (same : rows'.map Row.ids = rows.map Row.ids) (held : DestinationsHeld rows) :
    DestinationsHeld rows' := by
  intro row mem
  have own : row.ids ∈ rows.map Row.ids := same ▸ List.mem_map_of_mem mem
  obtain ⟨before, mem', ids⟩ := List.mem_map.mp own
  exact ids ▸ held before mem'

/-- A statement that sets no id. -/
def Statement.LeavesIds : Statement → Prop
  | .addColumn (.id _) | .updateId _ => False
  | _ => True

/-- Rows come into the table with a destination, or not at all. -/
theorem destinations_execute {α : Type} {f f' : File α} (leaves : statement.LeavesIds) (held : DestinationsHeld f.rows)
    (done : execute f statement = some f') : DestinationsHeld f'.rows := by
  cases statement with
  | createAll =>
    cases done
    cases at_ : f.telegrams <;> simpa [File.rows, at_, Table.new] using held
  | insertLookup =>
    obtain ⟨table, _, done⟩ := Option.bind_eq_some_iff.mp done
    split at done
    · cases done
      exact held
    · cases done
  | updateId => exact leaves.elim
  | addColumn column =>
    obtain ⟨table, present, done⟩ := Option.bind_eq_some_iff.mp done
    split at done
    · cases done
    · cases done
      cases column <;> first | exact leaves.elim | simpa [File.rows, present, Table.addColumn] using held
  | dropIndex name =>
    cases done
    cases at_ : f.telegrams <;> simpa [File.rows, at_] using held
  | dropOldIfExists | setNullsRecovered | setDataUnwrapped =>
    cases done
    exact held
  | renameTelegrams | createTelegrams =>
    simp only [execute] at done
    split at done
    · cases done
      exact List.forall_mem_nil _
    · cases done
  | dropOld =>
    simp only [execute] at done
    split at done
    · cases done
      exact held
    · cases done
  | createIndex name =>
    obtain ⟨table, present, done⟩ := Option.bind_eq_some_iff.mp done
    split at done
    · cases done
    · cases done
      simpa [File.rows, present] using held
  | copyRows columns =>
    obtain ⟨table, present, done⟩ := Option.bind_eq_some_iff.mp done
    obtain ⟨old, _, done⟩ := Option.bind_eq_some_iff.mp done
    obtain ⟨copied, made, done⟩ := Option.bind_eq_some_iff.mp done
    split at done
    · cases done
      intro row mem
      rcases List.mem_append.mp mem with own | new
      · refine held row ?_
        simpa [File.rows, present] using own
      · obtain ⟨source, _, copy⟩ := Sql.forall₂_mem (Sql.mapM_some_iff.mp made) new
        obtain ⟨required, same⟩ := Option.ite_none_right_eq_some.mp copy
        cases same
        exact required.2.1
    · cases done
  | recoverNulls | unwrapRow =>
    obtain ⟨_, _, rfl⟩ := Option.map_eq_some_iff.mp done
    exact held

theorem destinations_run (leaves : ∀ statement ∈ statements, statement.LeavesIds) (held : DestinationsHeld db.rows)
    (ran : run (Database.execute host) db statements = some db') : DestinationsHeld db'.rows := by
  refine run_invariant (I := fun now : Database => DestinationsHeld now.rows)
    (fun now statement next held leaves taken => ?_)
    held (along_of_mem fun statement mem _ => leaves statement mem) ran
  obtain ⟨file, done, rfl⟩ := Option.map_eq_some_iff.mp taken
  obtain ⟨middle, executed, rfl | ⟨rows, rfl, same⟩⟩ := executeCells_some done
  · exact destinations_execute leaves held executed
  · exact destinationsHeld_of_ids (ids_withRows same) (destinations_execute leaves held executed)

/-! ## The upgrade of the schema -/

/-- What SQLite enforces of a table in the form of the model: its
`destination_id` is NOT NULL. -/
def Database.Declared (db : Database) : Prop :=
  ∀ columns, db.file.columns = some columns → (∀ column ∈ legacyColumns, column ∉ columns) → DestinationsHeld db.rows

/-- What an upgrade leaves. -/
structure Database.Normalized (db : Database) : Prop where
  columns : ∃ columns, db.file.columns = some columns ∧ Modern columns
  destinations : DestinationsHeld db.rows
  nullsRecovered : db.file.nullsRecovered = true
  dataUnwrapped : db.file.dataUnwrapped = true
  lastGa : db.lastGa.isSome

theorem nullsRecovered_step (taken : db.execute host statement = some db') :
    db'.file.nullsRecovered = (db.file.nullsRecovered || statement = .setNullsRecovered) := by
  have each {f f' : File Cells} (executed : execute f statement = some f') :
      f'.nullsRecovered = (f.nullsRecovered || statement = .setNullsRecovered) := by
    cases statement with
    | createAll | dropIndex | dropOldIfExists | setDataUnwrapped =>
      cases executed
      simp
    | setNullsRecovered =>
      cases executed
      simp
    | insertLookup | updateId | addColumn | createIndex =>
      obtain ⟨table, _, executed⟩ := Option.bind_eq_some_iff.mp executed
      split at executed <;> cases executed
      simp
    | renameTelegrams | createTelegrams | dropOld =>
      simp only [execute] at executed
      split at executed <;> cases executed
      simp
    | copyRows =>
      obtain ⟨table, _, executed⟩ := Option.bind_eq_some_iff.mp executed
      obtain ⟨old, _, executed⟩ := Option.bind_eq_some_iff.mp executed
      obtain ⟨copied, _, executed⟩ := Option.bind_eq_some_iff.mp executed
      split at executed <;> cases executed
      simp
    | recoverNulls | unwrapRow =>
      obtain ⟨_, _, rfl⟩ := Option.map_eq_some_iff.mp executed
      simp
  obtain ⟨file, done, rfl⟩ := Option.map_eq_some_iff.mp taken
  obtain ⟨middle, executed, rfl | ⟨rows, rfl, _⟩⟩ := executeCells_some done
  · exact each executed
  · exact (each executed :)

theorem nullsRecovered_run (ran : run (Database.execute host) db statements = some db')
    (set : db.file.nullsRecovered = true ∨ .setNullsRecovered ∈ statements) : db'.file.nullsRecovered = true := by
  have once {now next : Database} {statements : List Statement} (set : now.file.nullsRecovered = true)
      (ran : run (Database.execute host) now statements = some next) : next.file.nullsRecovered = true :=
    run_keeps (I := fun now : Database => now.file.nullsRecovered = true)
      (fun now statement next set taken => by rw [nullsRecovered_step taken, set, Bool.true_or]) set ran
  rcases set with set | mem
  · exact once set ran
  · obtain ⟨before, rest, rfl⟩ := List.append_of_mem mem
    obtain ⟨middle, _, ran⟩ := run_append.mp ran
    obtain ⟨next, taken, ran⟩ := run_cons.mp ran
    refine once ?_ ran
    rw [nullsRecovered_step taken, decide_eq_true rfl, Bool.or_true]

theorem lastGa_run (ran : run (Database.execute host) db statements = some db') (present : db.lastGa.isSome) :
    db'.lastGa.isSome := by
  refine run_keeps (I := fun now : Database => now.lastGa.isSome)
    (fun now statement next present taken => ?_) present ran
  obtain ⟨file, _, rfl⟩ := Option.map_eq_some_iff.mp taken
  cases statement
  case createAll => rfl
  all_goals exact present

/-- What recovers the values of `value_numeric` touches no id. -/
theorem leavesIds_recoverNulls (nullsRecovered : Bool) (columns : List Column) :
    ∀ statement ∈ recoverNulls nullsRecovered columns, statement.LeavesIds := by
  intro statement mem
  unfold recoverNulls at mem
  split at mem
  · cases mem
  · rcases List.mem_append.mp mem with recovering | flag
    · split at recovering
      · cases List.mem_singleton.mp recovering
        trivial
      · cases recovering
    · cases List.mem_singleton.mp flag
      trivial

/-- An upgrade without legacy columns sets no id. -/
theorem leavesIds_upgradeSchema {α : Type} (table : Table α) (nullsRecovered : Bool)
    (modern : ¬ ∃ column ∈ table.columns, column ∈ legacyColumns) :
    ∀ statement ∈ Sqlite.upgradeSchema table nullsRecovered, statement.LeavesIds := by
  have flat : Column.string .source ∉ table.columns := fun own => modern ⟨_, own, by decide⟩
  intro statement mem
  simp only [Sqlite.upgradeSchema, if_neg modern, if_neg flat, List.nil_append, List.append_nil] at mem
  rcases List.mem_append.mp mem with adding | recovering
  · obtain ⟨column, missing, rfl⟩ := List.mem_map.mp adding
    have cells : ∀ column ∈ expectedColumns, (Statement.addColumn column).LeavesIds := by
      intro column expected
      cases column <;> trivial
    exact cells column (List.mem_of_mem_filter missing)
  · exact leavesIds_recoverNulls _ _ statement recovering

/-- Behind the RENAME of a rebuild no statement sets an id. -/
theorem upgradeSchema_rebuilds {α : Type} (table : Table α) (nullsRecovered : Bool)
    (legacy : ∃ column ∈ table.columns, column ∈ legacyColumns) :
    ∃ before after, Sqlite.upgradeSchema table nullsRecovered = before ++ .renameTelegrams :: after ∧
      ∀ statement ∈ after, statement.LeavesIds := by
  obtain ⟨before, columns, shape, _⟩ := upgradeSchema_shape table nullsRecovered
  refine ⟨before ++ (table.indexes.map .dropIndex ++ [.dropOldIfExists]), .createTelegrams ::
    (modelIndexes.map .createIndex ++
    (.copyRows (keepColumns.filter (· ∈ columns)) :: .dropOld :: recoverNulls nullsRecovered columns)),
    ?_, fun statement mem => ?_⟩
  · rw [shape, if_pos legacy, rebuild]
    simp only [List.append_assoc, List.cons_append, List.nil_append]
  · rcases List.mem_cons.mp mem with rfl | mem
    · trivial
    · rcases List.mem_append.mp mem with indexing | mem
      · obtain ⟨name, _, rfl⟩ := List.mem_map.mp indexing
        trivial
      · simp only [List.mem_cons] at mem
        rcases mem with rfl | rfl | recovering
        · trivial
        · trivial
        · exact leavesIds_recoverNulls _ _ statement recovering

theorem destinations_createAll {columns : List Column} (declared : db.Declared)
    (created : db.execute host .createAll = some db')
    (held : db'.file.columns = some columns) (modern : ∀ column ∈ legacyColumns, column ∉ columns) :
    DestinationsHeld db'.rows := by
  have leaves : ∀ statement ∈ [Statement.createAll], statement.LeavesIds := by simp [Statement.LeavesIds]
  refine destinations_run leaves ?_ (run_cons.mpr ⟨db', created, rfl⟩)
  have same := columns_step created
  cases at_ : db.file.columns with
  | none =>
    have none : db.file.telegrams = none := Option.map_eq_none_iff.mp at_
    simp [DestinationsHeld, Database.rows, File.rows, none]
  | some before =>
    rw [held, at_] at same
    cases same
    exact declared _ at_ modern

theorem flag_mem_upgradeSchema {α : Type} (table : Table α) :
    .setNullsRecovered ∈ Sqlite.upgradeSchema table false := by
  obtain ⟨before, columns, shape, _⟩ := upgradeSchema_shape table false
  rw [shape]
  exact List.mem_append_right _ (List.mem_append_right _ List.mem_cons_self)

theorem normalized_upgradeSchema (declared : db.Declared) (done : db.upgradeSchema host = some db') :
    db'.Normalized := by
  simp only [Database.upgradeSchema, Option.bind_eq_bind, Option.bind_eq_some_iff] at done
  obtain ⟨created, creating, table, present, upgraded, upgrading, done⟩ := done
  have createdColumns : created.file.columns = some table.columns := by rw [File.columns, present, Option.map_some]
  have columns : ∃ columns, upgraded.file.columns = some columns ∧ Modern columns := by
    obtain ⟨columns, folded, modern⟩ := foldl_upgradeSchema table created.file.nullsRecovered
    exact ⟨columns, by rw [columns_run upgrading, createdColumns, folded], modern⟩
  have destinations : DestinationsHeld upgraded.rows := by
    by_cases legacy : ∃ column ∈ table.columns, column ∈ legacyColumns
    · obtain ⟨before, after, split, leaves⟩ := upgradeSchema_rebuilds table created.file.nullsRecovered legacy
      rw [split] at upgrading
      obtain ⟨middle, _, ran⟩ := run_append.mp upgrading
      obtain ⟨renamed, taken, ran⟩ := run_cons.mp ran
      refine destinations_run leaves ?_ ran
      have gone := columns_step taken
      have none : renamed.file.telegrams = none := Option.map_eq_none_iff.mp gone
      simp [DestinationsHeld, Database.rows, File.rows, none]
    · refine destinations_run (leavesIds_upgradeSchema table created.file.nullsRecovered legacy) ?_ upgrading
      exact destinations_createAll declared creating createdColumns fun column old own => legacy ⟨column, own, old⟩
  have nullsRecovered : upgraded.file.nullsRecovered = true := by
    refine nullsRecovered_run upgrading ?_
    cases created.file.nullsRecovered with
    | true => exact .inl rfl
    | false => exact .inr (flag_mem_upgradeSchema table)
  have lastGa : upgraded.lastGa.isSome := by
    refine lastGa_run upgrading ?_
    obtain ⟨file, _, rfl⟩ := Option.map_eq_some_iff.mp creating
    rfl
  split at done
  · rename_i flagged
    cases done
    exact ⟨columns, destinations, nullsRecovered, flagged, lastGa⟩
  · cases done
    refine ⟨(columns_withRows upgraded.file _).symm ▸ columns, destinationsHeld_of_ids (ids_withRows ?_) destinations,
      nullsRecovered, rfl, lastGa⟩
    simp [Database.rows, Row.update, Function.comp_def]

end KnxTelegramStore.Sqlite
