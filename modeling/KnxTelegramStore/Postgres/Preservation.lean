import KnxTelegramStore.Postgres.Upgrade
import KnxTelegramStore.Sqlite.FlatUpgrade

/-!
The tables that `_upgrade_schema` upgrades, and that their rows go on saying
what they said: for PostgreSQL, and for both backends in `schema_upgrades_iff`.
-/
namespace KnxTelegramStore.Postgres
open EventMachine
open Sql (Category IdSource StringLookup)

/-- The cells that a list of statements leaves in a row. -/
def rewritten (lookup : StringLookup) (row : Row) (statements : List Statement) : Row :=
  statements.foldl (Statement.rewrite lookup) row

variable {ids : IdSource} {s after : Session} {types : Types} {statement : Statement}
    {statements before rest : List Statement}
variable {column : Column} {category : Category} {lookup : StringLookup} {row : Row} {loop : Renaming}

/-! ## What a statement writes -/

namespace Statement

def Writes (column : Column) : Statement → Prop
  | renameColumn old new => column = old ∨ column = new
  | encodeRawData => column = .rawData
  | addColumn other _ | dropColumn other => column = other
  | updateId category => column = .id category
  | insertLookup _ => False

theorem retype_of_spared (spared : ¬ statement.Writes column) : statement.retype types column = types column := by
  cases statement with
  | renameColumn old new =>
    obtain ⟨old, new⟩ := not_or.mp spared
    simp [retype, old, new]
  | encodeRawData | addColumn _ _ | dropColumn _ => exact Function.update_of_ne spared _ _
  | insertLookup _ | updateId _ => rfl

theorem rewrite_of_spared (spared : ¬ statement.Writes column) : statement.rewrite lookup row column = row column := by
  cases statement with
  | renameColumn old new =>
    obtain ⟨old, new⟩ := not_or.mp spared
    simp [rewrite, old, new]
  | encodeRawData | addColumn _ _ | dropColumn _ => exact Function.update_of_ne spared _ _
  | insertLookup _ => rfl
  | updateId category =>
    cases found : (row (.string category)).string?.bind fun value => lookup.idOf (category, value) with
    | none => simp only [rewrite, found]
    | some id =>
      simp only [rewrite, found]
      exact Function.update_of_ne spared _ _

end Statement

theorem retyped_of_spared (spared : ∀ statement ∈ statements, ¬ statement.Writes column) :
    retyped types statements column = types column := by
  induction statements generalizing types with
  | nil => rfl
  | cons statement statements ih =>
    obtain ⟨first, spared⟩ := List.forall_mem_cons.mp spared
    rw [retyped_cons, ih spared, Statement.retype_of_spared first]

theorem rewritten_of_spared (spared : ∀ statement ∈ statements, ¬ statement.Writes column) :
    rewritten lookup row statements column = row column := by
  induction statements generalizing row with
  | nil => rfl
  | cons statement statements ih =>
    obtain ⟨first, spared⟩ := List.forall_mem_cons.mp spared
    rw [rewritten, List.foldl_cons, ← rewritten, ih spared, Statement.rewrite_of_spared first]

theorem rewritten_append :
    rewritten lookup row (before ++ rest) = rewritten lookup (rewritten lookup row before) rest := List.foldl_append

/-- Statements that run on the table as it is, and do not get in each other's
way, run one after the other. -/
theorem executable_of_apart (sound : ∀ statement ∈ statements, statement.Sound types)
    (apart : statements.Pairwise fun first second => ∀ types, second.Sound types → second.Sound (first.retype types)) :
    Executable types statements := by
  induction statements generalizing types with
  | nil => trivial
  | cons statement statements ih =>
    obtain ⟨first, sound⟩ := List.forall_mem_cons.mp sound
    obtain ⟨spares, apart⟩ := List.pairwise_cons.mp apart
    exact ⟨first, ih (fun other mem => spares other mem _ (sound other mem)) apart⟩

/-! ## The statements one kind at a time -/

theorem executable_insertLookups {categories : List Category}
    (present : ∀ category ∈ categories, (types (.string category)).isSome) :
    Executable types (categories.map .insertLookup) := by
  apply executable_of_apart
  · exact List.forall_mem_map.mpr present
  · exact List.pairwise_map.mpr (List.pairwise_of_forall fun _ _ _ sound => sound)

theorem executable_updateIds {categories : List Category}
    (present : ∀ category ∈ categories, (types (.string category)).isSome ∧ (types (.id category)).isSome) :
    Executable types (categories.map .updateId) := by
  apply executable_of_apart
  · exact List.forall_mem_map.mpr present
  · exact List.pairwise_map.mpr (List.pairwise_of_forall fun _ _ _ sound => sound)

theorem executable_addColumns {entries : List (Column × ColumnType)}
    (distinct : entries.Pairwise fun first second => first.1 ≠ second.1)
    (absent : ∀ entry ∈ entries, types entry.1 = none) :
    Executable types (entries.map fun entry => .addColumn entry.1 entry.2) := by
  apply executable_of_apart
  · exact List.forall_mem_map.mpr absent
  · refine List.pairwise_map.mpr (distinct.imp fun different types sound => ?_)
    exact (Function.update_of_ne different.symm _ _).trans sound

theorem executable_dropColumns {columns : List Column} (distinct : columns.Nodup)
    (present : ∀ column ∈ columns, (types column).isSome) :
    Executable types (columns.map .dropColumn) := by
  apply executable_of_apart
  · exact List.forall_mem_map.mpr present
  · refine List.pairwise_map.mpr (distinct.imp fun different types sound => ?_)
    exact (congrArg Option.isSome (Function.update_of_ne different.symm _ _)).trans sound

/-! ## The columns of an upgrade -/

theorem mem_trailing (mem : statement ∈ trailing types) :
    (∃ category, statement = .addColumn (.id category) .integer ∨ statement = .updateId category ∨
        statement = .dropColumn (.string category)) ∨
      (∃ column ∈ legacyColumns, statement = .dropColumn column) ∨
      ∃ entry ∈ expectedColumns, (types entry.1).isSome = false ∧ statement = .addColumn entry.1 entry.2 := by
  simp only [trailing, List.mem_append, List.mem_map] at mem
  rcases mem with ⟨category, _, rfl⟩ | ⟨category, _, rfl⟩ | ⟨category, _, rfl⟩ | ⟨column, own, rfl⟩ | completed
  · exact .inl ⟨category, .inl rfl⟩
  · exact .inl ⟨category, .inr (.inl rfl)⟩
  · exact .inl ⟨category, .inr (.inr rfl)⟩
  · exact .inr (.inl ⟨column, List.mem_of_mem_filter own, rfl⟩)
  · exact .inr (.inr (mem_completing.mp completed))

/-- The columns where the ids are made: flat strings, and the rest as it was. -/
structure Flat (types flat : Types) : Prop where
  strings : ∀ category, (flat (.string category)).isSome
  ids : ∀ category, flat (.id category) = none
  legacy : ∀ column ∈ legacyColumns, flat column = types column
  expected : ∀ entry ∈ expectedColumns, flat entry.1 = types entry.1

theorem mem_categories (category : Category) : category ∈ categories := by
  cases category <;> decide

/-- The id columns are made first. -/
theorem executable_addIds {flat : Types} (prepared : Flat types flat) :
    Executable flat (categories.map fun category => .addColumn (.id category) .integer) := by
  have distinct : (categories.map fun category => (Column.id category, ColumnType.integer)).Pairwise
      fun first second => first.1 ≠ second.1 := by decide
  exact executable_addColumns distinct (List.forall_mem_map.mpr fun category _ => prepared.ids category)

theorem isSome_addIds {flat : Types} (prepared : Flat types flat) (category : Category) :
    (retyped flat (categories.map fun category => .addColumn (.id category) .integer) (.id category)).isSome := by
  refine isSome_of_brought (executable_addIds prepared) (List.mem_map_of_mem (mem_categories category)) rfl ?_
  exact List.forall_mem_map.mpr fun _ _ removes => removes.elim

theorem retyped_addIds (types : Types) (other : ∀ category, column ≠ .id category) :
    retyped types (categories.map fun category => .addColumn (.id category) .integer) column = types column :=
  retyped_of_spared (List.forall_mem_map.mpr fun category _ writes => other category writes)

theorem retyped_updateIds (types : Types) : retyped types (categories.map .updateId) = types := rfl

theorem retyped_dropStrings (types : Types) (other : ∀ category, column ≠ .string category) :
    retyped types (categories.map fun category => .dropColumn (.string category)) column = types column :=
  retyped_of_spared (List.forall_mem_map.mpr fun category _ writes => other category writes)

theorem executable_trailing {flat : Types} (prepared : Flat types flat) : Executable flat (trailing types) := by
  have strings : (categories.map Column.string).Nodup := by decide
  have legacy : legacyColumns.Nodup := by decide
  have expected : expectedColumns.Pairwise fun first second => first.1 ≠ second.1 := by decide
  have regular : ∀ column ∈ legacyColumns ++ expectedColumns.map Prod.fst,
      (∀ category, column ≠ .id category) ∧ ∀ category, column ≠ .string category := by
    simp [legacyColumns, expectedColumns]
  have same (column : Column) (own : column ∈ legacyColumns ++ expectedColumns.map Prod.fst) :
      retyped (retyped (retyped flat (categories.map fun category => .addColumn (.id category) .integer))
        (categories.map .updateId)) (categories.map fun category => .dropColumn (.string category)) column =
          flat column := by
    rw [retyped_dropStrings _ (regular column own).2, retyped_updateIds, retyped_addIds _ (regular column own).1]
  refine executable_append.mpr ⟨executable_addIds prepared, executable_append.mpr ⟨?_, executable_append.mpr ⟨?_,
    executable_append.mpr ⟨?_, ?_⟩⟩⟩⟩
  · refine executable_updateIds fun category _ => ⟨?_, isSome_addIds prepared category⟩
    rw [retyped_addIds _ (by simp)]
    exact prepared.strings category
  · rw [retyped_updateIds]
    refine executable_dropColumns strings (List.forall_mem_map.mpr fun category _ => ?_)
    rw [retyped_addIds _ (by simp)]
    exact prepared.strings category
  · refine executable_dropColumns (legacy.filter _) fun column mem => ?_
    obtain ⟨own, held⟩ := List.mem_filter.mp mem
    rw [same column (List.mem_append_left _ own), prepared.legacy column own]
    exact held
  · refine executable_addColumns (expected.filter _) fun entry mem => ?_
    obtain ⟨own, absent⟩ := List.mem_filter.mp mem
    have listed : entry.1 ∉ legacyColumns := by
      have apart : ∀ entry ∈ expectedColumns, entry.1 ∉ legacyColumns := by decide
      exact apart entry own
    have spared : ∀ statement ∈ (legacyColumns.filter fun column => (types column).isSome).map Statement.dropColumn,
        ¬ statement.Writes entry.1 := by
      refine List.forall_mem_map.mpr fun column mem (written : entry.1 = column) => ?_
      exact listed (written ▸ List.mem_of_mem_filter mem)
    rw [retyped_of_spared spared, same entry.1 (List.mem_append_right _ (List.mem_map_of_mem own)),
      prepared.expected entry own]
    simpa using absent

/-- The statements in front of the normalization. -/
def fronting (types : Types) : List Statement :=
  (Renaming.current types).issued ++ encoding types (Renaming.current types).existing

theorem tracks_current (legacy : Legacy types) : (Renaming.current types).Tracks types :=
  tracks_foldl (tracks_start legacy.pristine) fun _ own => List.mem_append_left _ own

theorem encoding_spares (types : Types) {existing : Column → Bool} (other : column ≠ .rawData) :
    ∀ statement ∈ encoding types existing, ¬ statement.Writes column := by
  intro statement mem writes
  unfold encoding at mem
  split_ifs at mem
  · cases List.mem_singleton.mp mem
    exact other writes
  · cases mem

theorem fronting_spares (unnamed : ∀ entry ∈ currentNames, column ≠ entry.1 ∧ column ≠ entry.2)
    (other : column ≠ .rawData) :
    ∀ statement ∈ fronting types, ¬ statement.Writes column := by
  intro statement mem writes
  rcases List.mem_append.mp mem with issued | encoded
  · obtain ⟨entry, own, rfl⟩ := issued_current issued
    rcases writes with old | new
    · exact (unnamed entry own).1 old
    · exact (unnamed entry own).2 new
  · exact encoding_spares types other statement encoded writes

theorem executable_fronting (legacy : Legacy types) : Executable types (fronting types) := by
  refine executable_append.mpr ⟨(tracks_current legacy).executable, ?_⟩
  unfold encoding
  split_ifs with raw
  · exact ⟨((tracks_current legacy).existing .rawData).symm.trans raw.1, trivial⟩
  · trivial

theorem flat_fronting (legacy : Legacy types) (upgradable : Upgradable types) :
    Flat types (retyped types (fronting types)) := by
  have unnamed : ∀ column ∈ legacyColumns ++ expectedColumns.map Prod.fst,
      (∀ entry ∈ currentNames, column ≠ entry.1 ∧ column ≠ entry.2) ∧ column ≠ .rawData := by decide
  have same (column : Column) (own : column ∈ legacyColumns ++ expectedColumns.map Prod.fst) :
      retyped types (fronting types) column = types column :=
    retyped_of_spared (fronting_spares (unnamed column own).1 (unnamed column own).2)
  refine ⟨fun category => ?_, fun category => ?_, fun column own => ?_, fun entry own => ?_⟩
  · rw [fronting, retyped_append, retyped_of_spared (encoding_spares types (by simp)),
      ← (tracks_current legacy).existing]
    exact existing_current_string legacy upgradable category
  · rw [retyped_of_spared (fronting_spares (by simp [currentNames]) (by simp)), legacy.unnormalized]
  · exact same column (List.mem_append_left _ own)
  · exact same entry.1 (List.mem_append_right _ (List.mem_map_of_mem own))

theorem executable_upgradeStatements (legacy : Legacy types) (upgradable : Upgradable types) :
    Executable types (upgradeStatements types) := by
  have flat := flat_fronting legacy upgradable
  rw [upgradeStatements_upgradable legacy upgradable]
  refine executable_append.mpr ⟨executable_fronting legacy, executable_append.mpr ⟨?_, executable_trailing flat⟩⟩
  exact executable_insertLookups fun category _ => flat.strings category

/-! ## What rows say -/

theorem resolved_renameColumn {entry : Column × Column} (own : entry ∈ currentNames)
    (unnormalized : ∀ category, s.table.types (.id category) = none)
    (sound : (Statement.renameColumn entry.1 entry.2).Sound s.table.types) :
    ((Statement.renameColumn entry.1 entry.2).apply ids s).resolved = s.resolved := by
  obtain ⟨held, free⟩ := sound
  simp only [Session.resolved, Statement.apply, List.map_map]
  refine List.map_congr_left fun row _ => ?_
  simp only [currentNames, List.mem_cons, List.not_mem_nil, or_false] at own
  rcases own with rfl | rfl | rfl
  all_goals
    simp only [Function.comp_apply, Table.resolve, Sql.ResolvedRow.mk.injEq]
    refine ⟨funext fun category => ?_, ?_⟩
    · cases category <;> simp [Table.string, Table.cell, Statement.retype, Statement.rewrite, legacyName,
        unnormalized, held, free]
    · simp [Table.cell, Statement.retype, Statement.rewrite]

theorem resolved_encodeRawData (sound : Statement.encodeRawData.Sound s.table.types) :
    (Statement.encodeRawData.apply ids s).resolved = s.resolved := by
  have held : (s.table.types .rawData).isSome := sound
  have hex (cell : Cell) : cell.encoded.hex? = cell.hex? := by cases cell <;> rfl
  simp only [Session.resolved, Statement.apply, List.map_map]
  refine List.map_congr_left fun row _ => ?_
  simp only [Function.comp_apply, Table.resolve, Sql.ResolvedRow.mk.injEq]
  refine ⟨funext fun category => ?_, ?_⟩
  · cases category <;> simp [Table.string, Table.cell, Statement.retype, Statement.rewrite, legacyName,
      Statement.intern]
  · simp [Table.cell, Statement.retype, Statement.rewrite, held, hex]

theorem resolved_renameColumns
    (renames : ∀ statement ∈ statements, ∃ entry ∈ currentNames, statement = .renameColumn entry.1 entry.2)
    (unnormalized : ∀ category, s.table.types (.id category) = none)
    (executable : Executable s.table.types statements) :
    (s.applied ids statements).resolved = s.resolved := by
  induction statements generalizing s with
  | nil => rfl
  | cons statement statements ih =>
    obtain ⟨⟨entry, own, rfl⟩, later⟩ := List.forall_mem_cons.mp renames
    obtain ⟨sound, executable⟩ := executable
    have ids_ : ∀ entry ∈ currentNames, ∀ category, Column.id category ≠ entry.1 ∧ Column.id category ≠ entry.2 := by
      simp [currentNames]
    rw [← resolved_renameColumn own unnormalized sound]
    refine ih later (fun category => ?_) executable
    have spared : ¬ (Statement.renameColumn entry.1 entry.2).Writes (.id category) := by
      rintro (old | new)
      · exact (ids_ entry own category).1 old
      · exact (ids_ entry own category).2 new
    exact (Statement.retype_of_spared spared).trans (unnormalized category)

theorem resolved_fronting (legacy : Legacy s.table.types) :
    (s.applied ids (fronting s.table.types)).resolved = s.resolved := by
  have executable := executable_append.mp (executable_fronting legacy)
  rw [fronting, applied_append, ← resolved_renameColumns
    (fun _ mem => issued_current mem) legacy.unnormalized executable.1]
  have encoded := executable.2
  unfold encoding at encoded ⊢
  split_ifs at encoded ⊢
  · refine resolved_encodeRawData ?_
    rw [types_applied]
    exact encoded.1
  · rfl

theorem applied_insertLookups (ids : IdSource) (s : Session) (categories : List Category) :
    s.applied ids (categories.map .insertLookup) =
      { s with lookup := s.lookup.insertColumns ids categories s.table.strings } := by
  induction categories generalizing s with
  | nil => rfl
  | cons category categories ih =>
    have first : (Statement.insertLookup category).apply ids s =
        { s with lookup := s.lookup.insertAll ids ((s.table.strings category).map (category, ·)) } := by
      have same : s.table.rows.map (fun row => (Statement.insertLookup category).rewrite s.lookup row) = s.table.rows :=
        List.map_id' s.table.rows
      simp only [Statement.apply, same]
      rfl
    rw [List.map_cons, Session.applied, List.foldl_cons, ← Session.applied, first, ih]
    rfl

/-- Statements that leave `string_lookup` alone work row by row. -/
theorem applied_rows (never : ∀ statement ∈ statements, ∀ category, statement ≠ .insertLookup category) :
    s.applied ids statements = { s with
      table := ⟨retyped s.table.types statements, s.table.rows.map fun row => rewritten s.lookup row statements⟩ } := by
  induction statements generalizing s with
  | nil => simp [Session.applied, retyped, rewritten]
  | cons statement statements ih =>
    obtain ⟨first, never⟩ := List.forall_mem_cons.mp never
    have lookup : (statement.apply ids s).lookup = s.lookup := by
      cases statement
      case insertLookup category => exact absurd rfl (first category)
      all_goals rfl
    rw [Session.applied, List.foldl_cons, ← Session.applied, ih never, lookup]
    simp [Statement.apply, retyped, rewritten, Function.comp_def]

theorem retyped_addColumns {entries : List (Column × ColumnType)} {entry : Column × ColumnType}
    (distinct : entries.Pairwise fun first second => first.1 ≠ second.1) (own : entry ∈ entries) :
    retyped types (entries.map fun entry => .addColumn entry.1 entry.2) entry.1 = some entry.2 := by
  induction entries generalizing types with
  | nil => cases own
  | cons first entries ih =>
    obtain ⟨others, distinct⟩ := List.pairwise_cons.mp distinct
    rw [List.map_cons, retyped_cons]
    rcases List.mem_cons.mp own with rfl | later
    · rw [retyped_of_spared]
      · simp [Statement.retype]
      · exact List.forall_mem_map.mpr fun other mem (written : entry.1 = other.1) => others other mem written
    · exact ih distinct later

theorem rewritten_addColumns {entries : List (Column × ColumnType)} (mem : column ∈ entries.map Prod.fst) :
    rewritten lookup row (entries.map fun entry => .addColumn entry.1 entry.2) column = .null := by
  induction entries generalizing row with
  | nil => cases mem
  | cons entry entries ih =>
    rw [List.map_cons, rewritten, List.foldl_cons, ← rewritten]
    by_cases later : column ∈ entries.map Prod.fst
    · exact ih later
    · have own : column = entry.1 := by simpa [later] using mem
      rw [rewritten_of_spared]
      · simp [Statement.rewrite, own]
      · refine List.forall_mem_map.mpr fun other mem (written : column = other.1) => later ?_
        exact written ▸ List.mem_map_of_mem mem

/-- The cell of an id behind the UPDATE. -/
def linkedCell (lookup : StringLookup) (row : Row) (category : Category) : Cell :=
  match (row (.string category)).string?.bind fun value => lookup.idOf (category, value) with
  | some id => .integer id
  | none => .null

theorem rewritten_updateIds {categories : List Category} (distinct : categories.Nodup) (mem : category ∈ categories)
    (blank : row (.id category) = .null) :
    rewritten lookup row (categories.map .updateId) (.id category) = linkedCell lookup row category := by
  induction categories generalizing row with
  | nil => cases mem
  | cons first categories ih =>
    obtain ⟨fresh, distinct⟩ := List.nodup_cons.mp distinct
    rw [List.map_cons, rewritten, List.foldl_cons, ← rewritten]
    rcases List.mem_cons.mp mem with rfl | later
    · rw [rewritten_of_spared]
      · unfold linkedCell
        cases found : (row (.string category)).string?.bind fun value => lookup.idOf (category, value) with
        | none => simp only [Statement.rewrite, found, blank]
        | some id => simp only [Statement.rewrite, found, Function.update_self]
      · refine List.forall_mem_map.mpr fun other mem (written : Column.id category = .id other) => fresh ?_
        cases written
        exact mem
    · have different : ¬ (Statement.updateId first).Writes (.id category) := by
        intro (written : Column.id category = .id first)
        cases written
        exact fresh later
      have string : (Statement.updateId first).rewrite lookup row (.string category) = row (.string category) :=
        Statement.rewrite_of_spared fun written => by cases written
      rw [ih distinct later ((Statement.rewrite_of_spared different).trans blank), linkedCell, string]
      rfl

/-! ## The columns and cells behind the statements -/

theorem trailing_writes (mem : statement ∈ trailing types) (writes : statement.Writes column) :
    (∃ category, column = .id category ∨ column = .string category) ∨ column ∈ legacyColumns ∨
      ∃ entry ∈ expectedColumns, (types entry.1).isSome = false ∧ column = entry.1 := by
  rcases mem_trailing mem with ⟨category, rfl | rfl | rfl⟩ | ⟨dropped, own, rfl⟩ | ⟨entry, own, absent, rfl⟩
  · exact .inl ⟨category, .inl writes⟩
  · exact .inl ⟨category, .inl writes⟩
  · exact .inl ⟨category, .inr writes⟩
  · have same : column = dropped := writes
    exact .inr (.inl (same ▸ own))
  · exact .inr (.inr ⟨entry, own, absent, writes⟩)

/-- Columns of neither kind are left alone. -/
theorem trailing_spares_others (own : column ∈ Column.rawData :: currentNames.map Prod.fst) :
    ∀ statement ∈ trailing types, ¬ statement.Writes column := by
  intro statement mem writes
  have regular : ∀ column ∈ Column.rawData :: currentNames.map Prod.fst,
      (∀ category, column ≠ .id category ∧ column ≠ .string category) ∧ column ∉ legacyColumns ∧
        ∀ entry ∈ expectedColumns, column ≠ entry.1 := by simp [currentNames, expectedColumns, legacyColumns]
  obtain ⟨other, unlisted, unexpected⟩ := regular column own
  rcases trailing_writes mem writes with ⟨category, id | string⟩ | listed | ⟨entry, expected, _, same⟩
  · exact (other category).1 id
  · exact (other category).2 string
  · exact unlisted listed
  · exact unexpected entry expected same

variable {entry : Column × ColumnType} {flat : Types}

/-- An expected column that is there is left alone. -/
theorem trailing_spares (own : entry ∈ expectedColumns) (held : (types entry.1).isSome) :
    ∀ statement ∈ trailing types, ¬ statement.Writes entry.1 := by
  intro statement mem writes
  have regular : ∀ entry ∈ expectedColumns, entry.1 ∉ legacyColumns ∧
      ∀ category, entry.1 ≠ .id category ∧ entry.1 ≠ .string category := by simp [expectedColumns, legacyColumns]
  obtain ⟨unlisted, other⟩ := regular entry own
  rcases trailing_writes mem writes with ⟨category, id | string⟩ | listed | ⟨added, _, absent, same⟩
  · exact (other category).1 id
  · exact (other category).2 string
  · exact unlisted listed
  · rw [← same, held] at absent
    cases absent

theorem missing_of_absent (own : entry ∈ expectedColumns) (absent : types entry.1 = none) :
    entry ∈ expectedColumns.filter fun entry => !(types entry.1).isSome :=
  List.mem_filter.mpr ⟨own, by simp [absent]⟩

/-- One that is not there is new. -/
theorem retyped_trailing_missing (own : entry ∈ expectedColumns) (absent : types entry.1 = none) :
    retyped flat (trailing types) entry.1 = some entry.2 := by
  have expected : expectedColumns.Pairwise fun first second => first.1 ≠ second.1 := by decide
  simp only [trailing, ← List.append_assoc]
  rw [retyped_append]
  exact retyped_addColumns (expected.filter _) (missing_of_absent own absent)

theorem rewritten_trailing_missing (own : entry ∈ expectedColumns) (absent : types entry.1 = none) :
    rewritten lookup row (trailing types) entry.1 = .null := by
  simp only [trailing, ← List.append_assoc]
  rw [rewritten_append]
  exact rewritten_addColumns (List.mem_map_of_mem (missing_of_absent own absent))

theorem isSome_trailing (prepared : Flat types flat) (own : entry ∈ expectedColumns) :
    (retyped flat (trailing types) entry.1).isSome := by
  by_cases held : (types entry.1).isSome
  · rw [retyped_of_spared (trailing_spares own held), prepared.expected entry own]
    exact held
  · rw [retyped_trailing_missing own (Option.not_isSome_iff_eq_none.mp held)]
    rfl

theorem retyped_trailing_string (types flat : Types) (category : Category) :
    retyped flat (trailing types) (.string category) = none := by
  have dropped : .dropColumn (.string category) ∈ trailing types := by
    simp only [trailing, List.mem_append]
    exact .inr (.inr (.inl (List.mem_map_of_mem (mem_categories category))))
  refine retyped_of_removed flat dropped rfl fun statement mem brings => ?_
  rcases mem_trailing mem with ⟨_, rfl | rfl | rfl⟩ | ⟨_, _, rfl⟩ | ⟨entry, own, _, rfl⟩
  · cases brings
  · cases brings
  · cases brings
  · cases brings
  · have other : ∀ entry ∈ expectedColumns, ∀ category, entry.1 ≠ .string category := by simp [expectedColumns]
    exact other entry own category brings

theorem retyped_trailing_id {flat : Types} (prepared : Flat types flat) (category : Category) :
    (retyped flat (trailing types) (.id category)).isSome := by
  have added : .addColumn (.id category) .integer ∈ trailing types := by
    simp only [trailing, List.mem_append]
    exact .inl (List.mem_map_of_mem (mem_categories category))
  refine isSome_of_brought (executable_trailing prepared) added rfl fun statement mem removes => ?_
  rcases mem_trailing mem with ⟨_, rfl | rfl | rfl⟩ | ⟨dropped, own, rfl⟩ | ⟨_, _, _, rfl⟩
  · cases removes
  · cases removes
  · cases removes
  · have other : ∀ column ∈ legacyColumns, column ≠ .id category := by simp [legacyColumns]
    exact other dropped own removes
  · cases removes

theorem rewritten_trailing_id (lookup : StringLookup) (row : Row) (category : Category) :
    rewritten lookup row (trailing types) (.id category) = linkedCell lookup row category := by
  have distinct : categories.Nodup := by decide
  have own : Column.id category ∈
    (categories.map fun category => (Column.id category, ColumnType.integer)).map Prod.fst :=
    List.mem_map.mpr ⟨(.id category, .integer), List.mem_map_of_mem (mem_categories category), rfl⟩
  have blank : rewritten lookup row (categories.map fun category => .addColumn (.id category) .integer)
    (.id category) = .null :=
    rewritten_addColumns own
  have string : rewritten lookup row (categories.map fun category => .addColumn (.id category) .integer)
    (.string category) =
      row (.string category) :=
    rewritten_of_spared (List.forall_mem_map.mpr fun _ _ writes => by cases writes)
  rw [trailing, rewritten_append, rewritten_append, rewritten_of_spared,
    rewritten_updateIds distinct (mem_categories category) blank, linkedCell, string]
  · rfl
  · intro statement mem writes
    simp only [List.mem_append, List.mem_map] at mem
    rcases mem with ⟨_, _, rfl⟩ | ⟨column, own, rfl⟩ | completed
    · cases writes
    · have other : ∀ column ∈ legacyColumns, Column.id category ≠ column := by simp [legacyColumns]
      exact other column (List.mem_of_mem_filter own) writes
    · obtain ⟨entry, own, _, rfl⟩ := mem_completing.mp completed
      have other : ∀ entry ∈ expectedColumns, Column.id category ≠ entry.1 := by simp [expectedColumns]
      exact other entry own writes

/-- A cell of an expected column says what it said. -/
theorem cell_trailing {table : Table} {rows : List Row} (prepared : Flat types table.types)
    (own : entry ∈ expectedColumns) :
    Table.cell ⟨retyped table.types (trailing types), rows⟩ (rewritten lookup row (trailing types)) entry.1 =
      table.cell row entry.1 := by
  have before := prepared.expected entry own
  cases held : (types entry.1).isSome with
  | true =>
    have spares := trailing_spares own held
    simp only [Table.cell, retyped_of_spared spares, rewritten_of_spared spares]
  | false =>
    have absent : types entry.1 = none := Option.not_isSome_iff_eq_none.mp (Bool.eq_false_iff.mp held)
    simp only [Table.cell, retyped_trailing_missing own absent, rewritten_trailing_missing own absent, before, absent]
    rfl

/-- The string of a flat column is the one that its id resolves to. -/
theorem string_trailing {table : Table} {rows : List Row} (prepared : Flat types table.types)
    (interned : ∀ value, (row (.string category)).string? = some value → ∃ id, lookup.idOf (category, value) = some id)
    (before : StringLookup) :
    Table.string ⟨retyped table.types (trailing types), rows⟩ lookup (rewritten lookup row (trailing types)) category =
      table.string before row category := by
  simp only [Table.string, retyped_trailing_string, if_pos (retyped_trailing_id prepared category),
    if_pos (prepared.strings category), rewritten_trailing_id, linkedCell]
  cases own : (row (.string category)).string? with
  | none => rfl
  | some value =>
    obtain ⟨id, found⟩ := interned value own
    simp only [Option.bind_some, found]
    exact Sql.stringOf_idOf found

theorem resolve_eq {table : Table} (numeric : (table.types .value).isSome → (table.types .valueNumeric).isSome) :
    table.resolve lookup row = {
      strings := fun category => (table.string lookup row category).getD ""
      dptMain := (table.cell row .dptMain).integer?
      dptSub := (table.cell row .dptSub).integer?
      valueNumeric := (table.cell row .valueNumeric).double?
      rawData := (table.cell row .rawData).hex? } := by
  simp only [Table.resolve, Sql.ResolvedRow.mk.injEq, true_and, and_true]
  by_cases held : (table.types .valueNumeric).isSome
  · rw [if_pos held, Table.cell, if_pos held]
  · have float : table.types .value ≠ some .double := by
      intro double
      rw [double] at numeric
      exact held (numeric rfl)
    rw [if_neg held, if_neg float, Table.cell, if_neg held]
    rfl

theorem resolve_trailing {table : Table} {rows : List Row} (prepared : Flat types table.types)
    (numeric : (types .value).isSome → (types .valueNumeric).isSome)
    (interned : ∀ category value, (row (.string category)).string? = some value →
    ∃ id, lookup.idOf (category, value) = some id)
    (before : StringLookup) :
    Table.resolve ⟨retyped table.types (trailing types), rows⟩ lookup (rewritten lookup row (trailing types)) =
      table.resolve before row := by
  have strings (category : Category) :
      Table.string ⟨retyped table.types (trailing types), rows⟩ lookup
        (rewritten lookup row (trailing types)) category =
        table.string before row category := string_trailing prepared (interned category) before
  have cell (entry : Column × ColumnType) (own : entry ∈ expectedColumns) :
      Table.cell ⟨retyped table.types (trailing types), rows⟩ (rewritten lookup row (trailing types)) entry.1 =
        table.cell row entry.1 := cell_trailing prepared own
  have raw : Table.cell ⟨retyped table.types (trailing types), rows⟩ (rewritten lookup row (trailing types)) .rawData =
      table.cell row .rawData := by
    have spares : ∀ statement ∈ trailing types, ¬ statement.Writes .rawData := trailing_spares_others List.mem_cons_self
    simp only [Table.cell, retyped_of_spared spares, rewritten_of_spared spares]
  have value : table.types .value = types .value := prepared.expected (.value, .jsonb) (by decide)
  have number : table.types .valueNumeric = types .valueNumeric :=
    prepared.expected (.valueNumeric, .double) (by decide)
  have completed : (retyped table.types (trailing types) .valueNumeric).isSome :=
    isSome_trailing prepared (show (Column.valueNumeric, ColumnType.double) ∈ expectedColumns by decide)
  rw [resolve_eq fun _ => completed, resolve_eq (by rw [value, number]; exact numeric)]
  simp only [strings, raw, cell (.dptMain, .integer) (by decide), cell (.dptSub, .integer) (by decide),
    cell (.valueNumeric, .double) (by decide)]

theorem resolved_upgradable (legacy : Legacy s.table.types) (upgradable : Upgradable s.table.types) :
    (s.applied ids (upgradeStatements s.table.types)).resolved = s.resolved := by
  have prepared := flat_fronting legacy upgradable
  rw [← types_applied ids] at prepared
  have kept : (s.applied ids (fronting s.table.types)).resolved = s.resolved := resolved_fronting legacy
  rw [upgradeStatements_upgradable legacy upgradable, applied_append, applied_append, ← fronting, ← kept]
  generalize s.applied ids (fronting s.table.types) = fronted at prepared ⊢
  rw [applied_insertLookups, applied_rows]
  · simp only [Session.resolved, List.map_map]
    refine List.map_congr_left fun row mem => ?_
    refine resolve_trailing prepared (fun held => (upgradable.value held).1)
      (fun category value own => ?_) fronted.lookup
    apply Sql.idOf_insertColumns ids fronted.lookup (mem_categories category)
    exact List.mem_dedup.mpr (List.mem_filterMap.mpr ⟨row, mem, own⟩)
  · rintro statement own category rfl
    rcases mem_trailing own with ⟨_, inserts | inserts | inserts⟩ | ⟨_, _, inserts⟩ |
      ⟨_, _, _, inserts⟩ <;> cases inserts

/-! ## A second upgrade -/

/-- The columns that an upgrade finds nothing to do in. -/
structure Modern (types : Types) : Prop where
  former : ∀ entry ∈ currentNames, types entry.1 = none
  source : types (.string .source) = none
  legacy : ∀ column ∈ legacyColumns, types column = none
  expected : ∀ entry ∈ expectedColumns, (types entry.1).isSome
  float : types .value ≠ some .double
  raw : types .rawData ≠ some .bytea

theorem foldl_idle {entries : List (Column × Column)} (idle : ∀ entry ∈ entries, loop.visit types entry = loop) :
    entries.foldl (Renaming.visit types) loop = loop := by
  induction entries with
  | nil => rfl
  | cons entry entries ih =>
    obtain ⟨first, idle⟩ := List.forall_mem_cons.mp idle
    rw [List.foldl_cons, first, ih idle]

theorem upgradeStatements_modern (modern : Modern types) : upgradeStatements types = [] := by
  have renamed : renameLoop types = Renaming.start types := by
    refine foldl_idle fun entry own => visit_idle fun (held : (types entry.1).isSome = true) => ?_
    rcases List.mem_append.mp own with former | expected
    · rw [modern.former entry former] at held
      cases held
    · have listed : entry ∈ [(Column.valueJson, Column.payload), (.value, .valueNumeric)] := expected
      have current : ∀ entry ∈ [(Column.valueJson, Column.payload), (.value, .valueNumeric)],
          entry.2 ∈ expectedColumns.map Prod.fst := by decide
      obtain ⟨target, own, same⟩ := List.mem_map.mp (current entry listed)
      exact ⟨same ▸ modern.expected target own, fun double => modern.float double.2⟩
  have refetched_ : refetched types = fun column => (types column).isSome := by
    rw [refetched, renamed, ite_eq_left_iff]
    exact fun _ => rfl
  have encoded : encoding types (renameLoop types).existing = [] := if_neg fun raw => modern.raw raw.2
  have flat : (renameLoop types).existing (.string .source) ≠ true := by
    rw [renamed]
    simp [Renaming.start, modern.source]
  have dropped : legacyColumns.filter (refetched types) = [] := by
    refine List.filter_eq_nil_iff.mpr fun column own => ?_
    simp [refetched_, modern.legacy column own]
  have completed : completing (refetched types) = [] := by
    refine List.eq_nil_iff_forall_not_mem.mpr fun statement mem => ?_
    obtain ⟨entry, own, missing, _⟩ := mem_completing.mp mem
    rw [refetched_] at missing
    exact absurd (modern.expected entry own) (Bool.eq_false_iff.mp missing)
  rw [upgradeStatements, leadingStatements, encoded, if_neg flat, dropped, completed, renamed]
  rfl

theorem retyped_trailing_legacy {flat : Types} (prepared : Flat types flat) (own : column ∈ legacyColumns) :
    retyped flat (trailing types) column = none := by
  have regular : ∀ column ∈ legacyColumns, (∀ category, column ≠ .id category) ∧
    ∀ entry ∈ expectedColumns, column ≠ entry.1 := by
    simp [expectedColumns, legacyColumns]
  obtain ⟨other, unexpected⟩ := regular column own
  have never : ∀ statement ∈ trailing types, ¬ statement.Brings column := by
    intro statement mem brings
    rcases mem_trailing mem with ⟨category, rfl | rfl | rfl⟩ | ⟨_, _, rfl⟩ | ⟨entry, expected, _, rfl⟩
    · exact other category brings.symm
    · cases brings
    · cases brings
    · cases brings
    · exact unexpected entry expected brings.symm
  by_contra stays
  have held := isSome_of_retyped never (Option.isSome_iff_ne_none.mpr stays)
  rw [prepared.legacy column own] at held
  have dropped : .dropColumn column ∈ trailing types := by
    simp only [trailing, List.mem_append]
    exact .inr (.inr (.inr (.inl (List.mem_map_of_mem (List.mem_filter.mpr ⟨own, held⟩)))))
  exact stays (retyped_of_removed flat dropped rfl never)

theorem retyped_fronting_former (legacy : Legacy types) {entry : Column × Column} (own : entry ∈ currentNames) :
    retyped types (fronting types) entry.1 = none := by
  have other : ∀ entry ∈ currentNames, entry.1 ≠ .rawData := by decide
  have former := (existing_current legacy own).1
  rw [(tracks_current legacy).existing] at former
  rw [fronting, retyped_append, retyped_of_spared (encoding_spares _ (other entry own))]
  exact Option.not_isSome_iff_eq_none.mp (Bool.eq_false_iff.mp former)

theorem retyped_fronting_raw (legacy : Legacy types) : retyped types (fronting types) .rawData ≠ some .bytea := by
  have unnamed : ∀ entry ∈ currentNames, Column.rawData ≠ entry.1 ∧ Column.rawData ≠ entry.2 := by decide
  have same : retyped types (Renaming.current types).issued .rawData = types .rawData := by
    refine retyped_of_spared fun statement mem writes => ?_
    obtain ⟨entry, own, rfl⟩ := issued_current mem
    rcases writes with old | new
    · exact (unnamed entry own).1 old
    · exact (unnamed entry own).2 new
  rw [fronting, retyped_append, encoding]
  split_ifs with raw
  · simp [retyped, Statement.retype]
  · intro (bytea : retyped types (Renaming.current types).issued .rawData = some .bytea)
    refine raw ⟨?_, same ▸ bytea⟩
    rw [(tracks_current legacy).existing, bytea]
    rfl

theorem modern_upgraded (legacy : Legacy types) (upgradable : Upgradable types) :
    Modern (retyped types (upgradeStatements types)) := by
  have prepared := flat_fronting legacy upgradable
  have shape : retyped types (upgradeStatements types) = retyped (retyped types (fronting types)) (trailing types) := by
    rw [upgradeStatements_upgradable legacy upgradable, retyped_append, retyped_append]
    rfl
  rw [shape]
  have value : (Column.value, ColumnType.jsonb) ∈ expectedColumns := by decide
  refine ⟨fun entry own => ?_, retyped_trailing_string _ _ _, fun column own => retyped_trailing_legacy prepared own,
    fun entry own => ?_, ?_, ?_⟩
  · rw [retyped_of_spared (trailing_spares_others (List.mem_cons_of_mem _ (List.mem_map_of_mem own)))]
    exact retyped_fronting_former legacy own
  · exact isSome_trailing prepared own
  · by_cases held : (types .value).isSome
    · rw [retyped_of_spared (trailing_spares value held), prepared.expected (.value, .jsonb) (by decide)]
      exact (upgradable.value held).2
    · rw [retyped_trailing_missing value (Option.not_isSome_iff_eq_none.mp held)]
      decide
  · rw [retyped_of_spared (trailing_spares_others List.mem_cons_self)]
    exact retyped_fronting_raw legacy

/-- A further upgrade leaves everything as it is. -/
theorem upgradeSchema_modern {inspector : Inspector} (caches : inspector.Caches) (ids : IdSource)
    (alive : s.aborted = false) (modern : Modern s.table.types) : s.upgradeSchema inspector ids = some s := by
  refine ((upgradeSchema_iff caches alive).mpr ⟨?_, ?_⟩).1
  · rw [upgradeStatements_modern modern]
    trivial
  · rw [upgradeStatements_modern modern]
    rfl

theorem upgrade_preserves {inspector : Inspector} (caches : inspector.Caches) (alive : s.aborted = false)
    (legacy : Legacy s.table.types) (upgradable : Upgradable s.table.types) : UpgradePreserves inspector ids s := by
  have executable := executable_upgradeStatements legacy upgradable
  have first : s.upgradeSchema inspector ids = some (s.applied ids (upgradeStatements s.table.types)) ∧
      (s.applied ids (upgradeStatements s.table.types)).aborted = false :=
    (upgradeSchema_iff caches alive).mpr ⟨executable, rfl⟩
  obtain ⟨ran, survived⟩ := first
  have modern := modern_upgraded legacy upgradable
  rw [← types_applied ids] at modern
  exact ⟨_, ran, survived, resolved_upgradable legacy upgradable, upgradeSchema_modern caches ids survived modern⟩

/-- **Which tables are upgraded.** SQLite upgrades a flat table that has both
columns of names. PostgreSQL upgrades one that has these and the direction, no
`dpt_name` and no `unit`, a `payload` where there is a `value_json`, and where
there is a `value` a `value_numeric` beside it and no float in it. Any other
upgrade fails, or leaves work to the next. -/
theorem schema_upgrades_iff {inspector : Inspector} (caches : inspector.Caches) :
    (∀ (host : Sqlite.Host) (db : Sqlite.Database) (table : Sqlite.Table Sqlite.Cells),
      db.file.telegrams = some table → table.Flat → (Sqlite.UpgradePreserves host db ↔
        .string .sourceName ∈ table.columns ∧ .string .destinationName ∈ table.columns)) ∧
      ∀ (ids : IdSource) (s : Session), s.aborted = false → Legacy s.table.types →
        (UpgradePreserves inspector ids s ↔ Upgradable s.table.types) := by
  refine ⟨fun host db table held flat => Sqlite.flat_upgrade_iff host held flat, fun ids s alive legacy => ?_⟩
  exact ⟨upgradable_of_preserves caches alive legacy, upgrade_preserves caches alive legacy⟩

/-- A table with the strings under their former names. -/
def formerTypes : Types
  | .timestamp => some .timestamptz
  | .sourceAddress | .targetAddress | .telegramType => some .text
  | .string .direction | .string .sourceName | .string .destinationName => some .text
  | .rawData => some .bytea
  | .unitId => some .integer
  | _ => none

def formerRow : Row
  | .timestamp => .instant 1700000000000000
  | .sourceAddress => .text "1.1.1"
  | .targetAddress => .text "1/1/1"
  | .telegramType => .text "GroupValueWrite"
  | .string .direction => .text "Incoming"
  | .string .sourceName => .text "Sensor"
  | .rawData => .bytea [12, 101]
  | _ => .null

theorem legacy_formerTypes : Legacy formerTypes := ⟨by decide, fun _ => rfl, rfl⟩

theorem schema_upgrades_former :
    Sqlite.UpgradePreserves Sqlite.roomyHost Sqlite.flatDatabase.toDatabase ∧
      UpgradePreserves (fun first _ => first) .sqlite ⟨⟨formerTypes, [formerRow]⟩, {}, false⟩ := by
  have caches : Inspector.Caches fun first _ => first := fun _ _ => rfl
  obtain ⟨sqlite, postgres⟩ := schema_upgrades_iff caches
  constructor
  · refine (sqlite _ _ _ rfl ⟨by decide, fun category => ?_, fun row mem => ?_⟩).mpr (by decide)
    · cases category <;> decide
    · cases List.mem_singleton.mp mem
      decide
  · exact (postgres _ _ rfl legacy_formerTypes).mpr ⟨by decide, by decide, by decide, by decide⟩

/-- A flat table of SQLite from before the names. -/
def namelessDatabase : Sqlite.Database :=
  { Sqlite.flatDatabase.toDatabase with
    file := {
      telegrams := some {
        columns := [.timestamp, .string .source, .string .destination, .string .telegramtype, .string .direction,
          .payload, .value]
        indexes := []
        rows := Sqlite.flatDatabase.rows } } }

theorem schema_not_upgraded :
    (∃ table, namelessDatabase.file.telegrams = some table ∧ table.Flat ∧
        ¬ Sqlite.UpgradePreserves Sqlite.roomyHost namelessDatabase) ∧
      Legacy (Function.update formerTypes (.string .direction) none) ∧
        ¬ UpgradePreserves (fun first _ => first) .sqlite
          ⟨⟨Function.update formerTypes (.string .direction) none, [formerRow]⟩, {}, false⟩ := by
  have flat : (namelessDatabase.file.telegrams.get rfl).Flat := by
    refine ⟨by decide, fun category => ?_, fun row mem => ?_⟩
    · cases category <;> decide
    · cases List.mem_singleton.mp mem
      decide
  have legacy : Legacy (Function.update formerTypes (.string .direction) none) :=
    ⟨by decide, by simp [formerTypes], rfl⟩
  refine ⟨⟨_, rfl, flat, fun preserves => ?_⟩, legacy, fun preserves => ?_⟩
  · have named := (Sqlite.flat_upgrade_iff Sqlite.roomyHost rfl flat).mp preserves
    exact absurd named.1 (by decide)
  · have strings := (upgradable_of_preserves (fun _ _ => rfl) rfl legacy preserves).strings .direction (by decide)
    exact absurd strings (by decide)

end KnxTelegramStore.Postgres
