import KnxTelegramStore.Postgres.BackfillRuns
import KnxTelegramStore.Postgres.Preservation

/-!
What `needs_migration()` says about a PostgreSQL database
(`PostgresStore._needs_migration_sync`) against what a start then does to it.
A probe that finds nothing promises that the start is quick: the schema
upgrade drops columns at most that nothing reads any more, and the backfill
has no value to correct. The other way round, an upgrade leaves a probe that
finds nothing, unless the table has both a `payload` and the `value_json` it
was renamed from (`probe_settles_iff`).
-/
namespace KnxTelegramStore.Postgres
open EventMachine
open Sql (Category IdSource)

variable {ids : IdSource} {s after : Session} {types : Types} {inspector : Inspector}

/-! ## The columns -/

/-- The checks of `_needs_migration_sync` on the columns. -/
def needsUpgrade (types : Types) : Bool :=
  ([Column.sourceAddress, .targetAddress, .telegramType, .valueJson].any fun column => (types column).isSome) ||
    types .value = some .double ||
    types .rawData = some .bytea ||
    (types (.string .source)).isSome ||
    (categories.any fun category => (types (.id category)).isNone) ||
    expectedColumns.any fun entry => (types entry.1).isNone

/-- A table that the probe finds nothing in. -/
structure Settled (types : Types) : Prop where
  former : ∀ column ∈ [Column.sourceAddress, .targetAddress, .telegramType, .valueJson], types column = none
  float : types .value ≠ some .double
  raw : types .rawData ≠ some .bytea
  source : types (.string .source) = none
  ids : ∀ category, (types (.id category)).isSome
  expected : ∀ entry ∈ expectedColumns, (types entry.1).isSome

theorem needsUpgrade_iff : needsUpgrade types = false ↔ Settled types := by
  simp only [needsUpgrade, Bool.or_eq_false_iff, List.any_eq_false, decide_eq_false_iff_not, Bool.not_eq_true,
    Option.isSome_eq_false_iff, Option.isNone_iff_eq_none, ← Option.isSome_iff_ne_none, ← ne_eq, and_assoc]
  constructor
  · rintro ⟨former, float, raw, source, ids, expected⟩
    exact ⟨former, float, raw, source, fun category => ids category (mem_categories category), expected⟩
  · rintro ⟨former, float, raw, source, ids, expected⟩
    exact ⟨former, float, raw, source, fun category _ => ids category, expected⟩

/-- In such a table nothing is renamed and nothing is missing. -/
theorem upgradeCommands_settled (settled : Settled types) : upgradeCommands types =
    (legacyColumns.filter fun column => (types column).isSome).map fun column => .attempt (.dropColumn column) := by
  have renamed : renameLoop types = Renaming.start types := by
    refine foldl_idle fun entry own => visit_idle fun (held : (types entry.1).isSome = true) => ?_
    have current : ∀ entry ∈ renames,
        entry.1 ∈ [Column.sourceAddress, .targetAddress, .telegramType, .valueJson] ∨
          entry = (.value, .valueNumeric) := by decide
    rcases current entry own with former | rfl
    · rw [settled.former entry.1 former] at held
      cases held
    · exact ⟨settled.expected (.valueNumeric, .double) (by decide), fun double => settled.float double.2⟩
  have unflat : (renameLoop types).existing (.string .source) ≠ true := by
    rw [renamed]
    simp [Renaming.start, settled.source]
  have columns : refetched types = fun column => (types column).isSome := by
    rw [refetched, if_neg unflat, renamed]
    rfl
  have encoded : encoding types (renameLoop types).existing = [] := if_neg fun raw => settled.raw raw.2
  have completed : completing (refetched types) = [] := by
    refine List.eq_nil_iff_forall_not_mem.mpr fun statement mem => ?_
    obtain ⟨entry, own, missing, _⟩ := mem_completing.mp mem
    rw [columns] at missing
    exact absurd (settled.expected entry own) (Bool.eq_false_iff.mp missing)
  rw [upgradeCommands, finishing, completed, if_neg unflat, encoded, renamed, columns]
  simp [Renaming.start]

/-- No row reads a column that is dropped at the end. -/
theorem resolve_dropLegacy {column : Column} (own : column ∈ legacyColumns) (table : Table) (rows : List Row)
    (lookup : Sql.StringLookup) (row : Row) :
    Table.resolve ⟨Function.update table.types column none, rows⟩ lookup (Function.update row column .null) =
      table.resolve lookup row := by
  have types {read : Column} (other : read ≠ column) :
      Function.update table.types column none read = table.types read := Function.update_of_ne other ..
  have cells {read : Column} (other : read ≠ column) : Function.update row column .null read = row read :=
    Function.update_of_ne other ..
  have cell {read : Column} (other : read ≠ column) :
      Table.cell ⟨Function.update table.types column none, rows⟩ (Function.update row column .null) read =
        table.cell row read := by
    simp only [Table.cell, types other, cells other]
  have unread {read : Column} (regular : read ∉ legacyColumns) : read ≠ column := fun same => regular (same ▸ own)
  simp only [Table.resolve, Sql.ResolvedRow.mk.injEq]
  refine ⟨funext fun category => ?_, ?_, ?_, ?_, ?_⟩
  · have string : Column.string category ≠ column := unread (by simp [legacyColumns])
    have id : Column.id category ≠ column := unread (by simp [legacyColumns])
    simp only [Table.string, types string, cells string, types id, cells id]
    cases category with
    | source =>
      simp only [legacyName, Option.bind_some, cell (unread (by decide : Column.sourceAddress ∉ legacyColumns))]
    | destination =>
      simp only [legacyName, Option.bind_some, cell (unread (by decide : Column.targetAddress ∉ legacyColumns))]
    | telegramtype =>
      simp only [legacyName, Option.bind_some, cell (unread (by decide : Column.telegramType ∉ legacyColumns))]
    | direction | sourceName | destinationName => rfl
  · rw [cell (unread (by decide))]
  · rw [cell (unread (by decide))]
  · have numeric : Column.valueNumeric ≠ column := unread (by decide)
    have value : Column.value ≠ column := unread (by decide)
    simp only [types numeric, cells numeric, types value, cells value]
  · rw [cell (unread (by decide))]

theorem resolved_dropLegacy {columns : List Column} (own : ∀ column ∈ columns, column ∈ legacyColumns) :
    (s.applied ids (columns.map .dropColumn)).resolved = s.resolved := by
  induction columns generalizing s with
  | nil => rfl
  | cons column columns ih =>
    obtain ⟨first, own⟩ := List.forall_mem_cons.mp own
    rw [List.map_cons, Session.applied, List.foldl_cons, ← Session.applied, ih own]
    simp only [Session.resolved, Statement.apply, List.map_map]
    exact List.map_congr_left fun row _ => resolve_dropLegacy first s.table _ s.lookup row

/-- **A quiet probe.** Where the probe finds nothing in the columns, the schema
upgrade of the start drops legacy columns that are left, and does nothing else:
it goes through, every row says what it said, and no string is interned. -/
theorem quiet_upgrade (caches : inspector.Caches) (alive : s.aborted = false)
    (quiet : needsUpgrade s.table.types = false) : ∃ after, s.upgradeSchema inspector ids = some after ∧
      after = s.applied ids ((legacyColumns.filter fun column => (s.table.types column).isSome).map .dropColumn) ∧
      after.aborted = false ∧ after.resolved = s.resolved ∧ after.lookup = s.lookup := by
  have commands := upgradeCommands_settled (needsUpgrade_iff.mp quiet)
  have statements : (upgradeCommands s.table.types).map Command.statement =
      (legacyColumns.filter fun column => (s.table.types column).isSome).map .dropColumn := by
    rw [commands, List.map_map]
    rfl
  have distinct : legacyColumns.Nodup := by decide
  have executable : Executable s.table.types ((upgradeCommands s.table.types).map Command.statement) := by
    rw [statements]
    exact executable_dropColumns (distinct.filter _) fun column mem => by simpa using (List.mem_filter.mp mem).2
  have ran : s.upgradeSchema inspector ids =
      some (s.applied ids ((upgradeCommands s.table.types).map Command.statement)) := by
    rw [upgradeSchema_eq caches]
    exact run_executable alive executable
  rw [statements] at ran
  refine ⟨_, ran, rfl, ?_, ?_, ?_⟩
  · rw [aborted_applied, alive]
  · exact resolved_dropLegacy fun column mem => (List.mem_filter.mp mem).1
  · rw [applied_rows fun statement mem category inserts => ?_]
    obtain ⟨column, _, rfl⟩ := List.mem_map.mp mem
    cases inserts

/-- **What an upgrade leaves to report.** An upgraded table is one that the
probe finds nothing in, exactly if it had no `value_json`: beside a `payload`
that column is neither renamed nor dropped. Any further upgrade leaves the
table as it is, so that every later probe reports the column again. -/
theorem probe_settles_iff (caches : inspector.Caches) (alive : s.aborted = false) (legacy : Legacy s.table.types)
    (upgradable : Upgradable s.table.types) : ∃ after, s.upgradeSchema inspector ids = some after ∧
      after.aborted = false ∧ (needsUpgrade after.table.types = false ↔ s.table.types .valueJson = none) ∧
      after.table.types .valueJson = s.table.types .valueJson ∧
      ∀ inspector ids, inspector.Caches → after.upgradeSchema inspector ids = some after := by
  have executable := executable_upgradeStatements legacy upgradable
  have finished : s.upgradeSchema inspector ids = some _ ∧ _ = false :=
    (upgradeSchema_iff caches alive).mpr ⟨executable, rfl⟩
  obtain ⟨ran, survived⟩ := finished
  have prepared := flat_fronting legacy upgradable
  have modern := modern_upgraded legacy upgradable
  have shape : retyped s.table.types (upgradeStatements s.table.types) =
      retyped (retyped s.table.types (fronting s.table.types)) (trailing s.table.types) := by
    rw [upgradeStatements_upgradable legacy upgradable, retyped_append, retyped_append]
    rfl
  have kept : retyped s.table.types (upgradeStatements s.table.types) .valueJson = s.table.types .valueJson := by
    rw [shape, retyped_of_spared, retyped_of_spared (fronting_spares (by decide) (by decide))]
    intro statement mem writes
    rcases trailing_writes mem writes with ⟨category, id | string⟩ | listed | ⟨entry, expected, _, same⟩
    · cases id
    · cases string
    · exact absurd listed (by decide)
    · have other : ∀ entry ∈ expectedColumns, Column.valueJson ≠ entry.1 := by decide
      exact other entry expected same
  have columns := types_applied ids s (upgradeStatements s.table.types)
  refine ⟨_, ran, survived, ?_, (congrFun columns _).trans kept, fun inspector again caches =>
    upgradeSchema_modern caches again survived (columns ▸ modern)⟩
  rw [columns, needsUpgrade_iff, ← kept]
  constructor
  · intro settled
    exact settled.former .valueJson (by decide)
  · intro absent
    refine ⟨fun column own => ?_, modern.float, modern.raw, modern.source, fun category => ?_, modern.expected⟩
    · have listed : ∀ column ∈ [Column.sourceAddress, .targetAddress, .telegramType, .valueJson],
          column = .valueJson ∨ ∃ entry ∈ currentNames, entry.1 = column := by decide
      rcases listed column own with rfl | ⟨entry, current, rfl⟩
      · exact absent
      · exact modern.former entry current
    · rw [shape]
      exact retyped_trailing_id prepared category

/-- The table of the library before `unit` was left out of it. -/
def describedTypes : Types
  | .timestamp => some .timestamptz
  | .id _ | .dptMain | .dptSub | .unitId => some .integer
  | .value | .payload => some .jsonb
  | .valueNumeric => some .double
  | .rawData => some .text
  | .dataSecure => some .boolean
  | _ => none

def describedRow : Row
  | .id .source => .integer 1
  | .unitId => .integer 7
  | .valueNumeric => .double (.number 21)
  | _ => .null

def describedSession : Session := ⟨⟨describedTypes, [describedRow]⟩, {}, false⟩

theorem described_quiet_upgrade : ∃ after, describedSession.upgradeSchema (fun first _ => first) .sqlite = some after ∧
    after.table.types .unitId = none ∧ after.resolved = describedSession.resolved := by
  have caches : Inspector.Caches fun first _ => first := fun _ _ => rfl
  obtain ⟨after, ran, same, _, resolved, _⟩ := quiet_upgrade (s := describedSession) caches rfl (by decide)
  exact ⟨after, ran, by rw [same]; decide, resolved⟩

def formerSession : Session := ⟨⟨formerTypes, [formerRow]⟩, {}, false⟩

theorem former_settles : ∃ after, formerSession.upgradeSchema (fun first _ => first) .sqlite = some after ∧
    needsUpgrade after.table.types = false := by
  have caches : Inspector.Caches fun first _ => first := fun _ _ => rfl
  obtain ⟨after, ran, _, settles, _⟩ := probe_settles_iff (s := formerSession) caches rfl legacy_formerTypes
    ⟨by decide, by decide, by decide, by decide⟩
  exact ⟨after, ran, settles.mpr rfl⟩

/-! ## The rows -/

namespace Backfill

variable {legacy : Bool} {db : Db} {s : State} {events : List Event}

/-- `SELECT 1 FROM telegrams WHERE ... LIMIT 1` -/
def Db.any (db : Db) (condition : DataCells → Bool) : Bool :=
  (List.range db.inserted).any fun id => (db.rows id).any (condition ·.cells)

/-- `...::text LIKE '{"value":%'`: the first entry has that key. -/
def beginsWrapped : Option PyValue → Bool
  | some (.dict ((key, _) :: _)) => key = "value"
  | _ => false

/-- The checks of `_needs_migration_sync` on the rows. -/
def needsBackfill (db : Db) : Bool :=
  (!db.flags.nullsRecovered && db.any recoverNulls.condition) ||
    !db.flags.dataUnwrapped && db.any fun cells => beginsWrapped cells.value || beginsWrapped cells.payload

theorem any_eq_false {condition : DataCells → Bool} : db.any condition = false ↔
    ∀ id row, db.rows id = some row → condition row.cells = false := by
  simp only [Db.any, List.any_eq_false, List.mem_range, Bool.not_eq_true]
  constructor
  · intro idle id row present
    have older : id < db.inserted := by
      by_contra beyond
      rw [db.bounded id (Nat.not_lt.mp beyond)] at present
      cases present
    have held := idle id older
    rwa [present] at held
  · intro idle id _
    cases present : db.rows id with
    | none => rfl
    | some row => exact idle id row present

/-- What the unwrapping takes for a wrapper begins like one. -/
theorem beginsWrapped_of_isWrapped {cell : Option PyValue} (held : isWrapped cell = true) :
    beginsWrapped cell = true := by
  match cell with
  | some (.dict [(key, value)]) =>
    by_cases same : key = "value"
    · exact decide_eq_true same
    · simp [isWrapped, Sqlite.wrapped, same] at held
  | none | some (.bool _) | some (.int _) | some (.float _) | some (.str _) | some .null | some (.list _)
  | some (.tuple _) | some (.dict []) | some (.dict (_ :: _ :: _)) => cases held

/-- A quiet probe leaves a backfill the floats alone. -/
theorem settled_of_quiet (quiet : needsBackfill db = false) {id : ℕ} {row : Row} (present : db.rows id = some row)
    (flags : Flags) (moved : Bool) :
    settled flags db.flags moved row.cells = if moved then moveFloats.apply row.cells else row.cells := by
  obtain ⟨nulls, wrappers⟩ := Bool.or_eq_false_iff.mp quiet
  have unrecovered : (if flags.nullsRecovered ∧ ¬ db.flags.nullsRecovered then recoverNulls.apply row.cells
      else row.cells) = row.cells := by
    apply ite_eq_right_iff.mpr
    rintro ⟨_, unset⟩
    rw [Bool.eq_false_iff.mpr unset, Bool.not_false, Bool.true_and] at nulls
    exact Update.apply_of_false (any_eq_false.mp nulls id row present)
  simp only [settled, unrecovered]
  apply ite_eq_right_iff.mpr
  rintro ⟨_, unset⟩
  rw [Bool.eq_false_iff.mpr unset, Bool.not_false, Bool.true_and] at wrappers
  obtain ⟨value, payload⟩ := Bool.or_eq_false_iff.mp (any_eq_false.mp wrappers id row present)
  have kept : (if moved then moveFloats.apply row.cells else row.cells).value = row.cells.value ∧
      (if moved then moveFloats.apply row.cells else row.cells).payload = row.cells.payload := by
    split
    · unfold Update.apply
      split <;> exact ⟨rfl, rfl⟩
    · exact ⟨rfl, rfl⟩
  apply Update.apply_of_false
  show (isWrapped _ || isWrapped _) = false
  rw [kept.1, kept.2, Bool.or_eq_false_iff]
  constructor
  · exact Bool.eq_false_iff.mpr fun held => Bool.eq_false_iff.mp value (beginsWrapped_of_isWrapped held)
  · exact Bool.eq_false_iff.mpr fun held => Bool.eq_false_iff.mp payload (beginsWrapped_of_isWrapped held)

/-- A row that was there before a change is the same row after it. -/
theorem row_before (change : Change) {id : ℕ} {row : Row} (older : id < db.inserted)
    (present : (change.apply legacy db).rows id = some row) :
    ∃ before, db.rows id = some before ∧ row.origin = before.origin ∧ row.since = before.since := by
  cases change with
  | write client =>
    replace present : (if id < db.inserted then if id ∈ client.deletes then none else db.rows id
      else client.inserts[id - db.inserted]?.map fun cells => ⟨cells, cells, db.flags⟩) = some row := present
    rw [if_pos older] at present
    split at present
    · cases present
    · exact ⟨row, present, rfl, rfl⟩
  | backfill t =>
    replace present : (db.backfill legacy).rows id = some row := present
    rw [rows_backfill] at present
    obtain ⟨before, found, rfl⟩ := Option.map_eq_some_iff.mp present
    exact ⟨before, found, rfl, rfl⟩

theorem inserted_apply (change : Change) : db.inserted ≤ (change.apply legacy db).inserted := by
  cases change with
  | write client => exact Nat.le_add_right ..
  | backfill t =>
    apply le_of_eq
    show db.inserted = (((db.nullsPass).floatPass legacy).unwrapPass).inserted
    unfold Db.unwrapPass Db.floatPass Db.nullsPass
    split <;> split <;> split <;> rfl

theorem row_first (changes : List Change) {id : ℕ} {row : Row} (older : id < db.inserted)
    (present : (changes.foldl (Change.apply legacy) db).rows id = some row) :
    ∃ before, db.rows id = some before ∧ row.origin = before.origin ∧ row.since = before.since := by
  induction changes generalizing db with
  | nil => exact ⟨row, present, rfl, rfl⟩
  | cons change changes ih =>
    obtain ⟨next, found, origin, since⟩ := ih (Nat.lt_of_lt_of_le older (inserted_apply change)) present
    obtain ⟨before, found, origin', since'⟩ := row_before change older found
    exact ⟨before, found, origin.trans origin', since.trans since'⟩

/-- **Quiet about the rows.** If the probe finds nothing in the rows, then
whatever starts and stores do from there on, a row that was there keeps its
cells for as long as it is there. Only a float may move, which the probe does
not look for. -/
theorem quiet_rows_kept (original : Original db) (quiet : needsBackfill db = false)
    (ran : run legacy db events = some s) (id : ℕ) (older : id < db.inserted) (row : Row)
    (present : s.db.rows id = some row) :
    ∃ before moved, db.rows id = some before ∧ (moved = true → legacy = true) ∧
      row.cells = if moved then moveFloats.apply before.cells else before.cells := by
  have settles := run_settles original ran id row present
  obtain ⟨moved, cells, only, _⟩ := settles.cells
  rw [(run_commits (Inv.init legacy db) ran).1] at present
  obtain ⟨before, found, origin, since⟩ := row_first _ older present
  obtain ⟨same, at_⟩ := original id before found
  refine ⟨before, moved, found, only, ?_⟩
  rw [cells, origin, since, at_, ← same]
  exact settled_of_quiet quiet found _ _

/-- Two rows that no probe reports: an object that is no wrapper, and a legacy
float. -/
def unwrappedTable : Db where
  rows
    | 0 => some ⟨⟨some (.dict [("unit", .str "A"), ("value", .int 5)]), none, none, none⟩,
        ⟨some (.dict [("unit", .str "A"), ("value", .int 5)]), none, none, none⟩, {}⟩
    | 1 => some ⟨⟨none, none, none, some (.number 5)⟩, ⟨none, none, none, some (.number 5)⟩, {}⟩
    | _ => none
  inserted := 2
  flags := {}
  bounded
    | 0, beyond | 1, beyond => absurd beyond (by omega)
    | _ + 2, _ => rfl

theorem unwrappedTable_original : Original unwrappedTable := by
  intro id row present
  match id with
  | 0 | 1 =>
    cases present
    exact ⟨rfl, rfl⟩
  | _ + 2 => cases present

theorem unwrappedTable_kept : ∃ s row, run true unwrappedTable twoStarts = some s ∧ s.db.rows 1 = some row ∧
    (s.starts 0).pc = .ended .committed ∧ ∃ before, ∃ moved : Bool, unwrappedTable.rows 1 = some before ∧
      row.cells = if moved then moveFloats.apply before.cells else before.cells := by
  obtain ⟨before, moved, found, _, cells⟩ := quiet_rows_kept unwrappedTable_original rfl
    (show run true unwrappedTable twoStarts = some _ from rfl) 1 (by decide) _ rfl
  exact ⟨_, _, rfl, rfl, rfl, before, moved, found, cells⟩

theorem flags_apply (change : Change) (set : db.flags = ⟨true, true⟩) :
    (change.apply legacy db).flags = ⟨true, true⟩ := by
  cases change with
  | write client => exact set
  | backfill t => exact db.flags_backfill legacy

theorem flags_of_mem {changes : List Change} {t : ℕ} (mem : Change.backfill t ∈ changes) :
    (changes.foldl (Change.apply legacy) db).flags = ⟨true, true⟩ := by
  induction changes using List.reverseRecOn with
  | nil => cases mem
  | append_singleton changes change ih =>
    rw [List.foldl_append]
    rcases List.mem_append.mp mem with earlier | last
    · exact flags_apply change (ih earlier)
    · rw [← List.mem_singleton.mp last]
      exact Db.flags_backfill legacy _

/-- **A start silences it.** From the first backfill that commits on, no probe
finds anything in the rows, whatever stores write later. -/
theorem committed_quiet (ran : run legacy db events = some s) (t : ℕ) (ended : (s.starts t).pc = .ended .committed) :
    needsBackfill s.db = false := by
  obtain ⟨same, starts, _⟩ := run_commits (Inv.init legacy db) ran
  have committed := ((starts t).mp ended).resolve_left nofun
  obtain ⟨change, mem, starts_⟩ := List.mem_filterMap.mp committed
  have flags : s.db.flags = ⟨true, true⟩ := by
    rw [same]
    cases change with
    | write client => cases starts_
    | backfill u =>
      obtain rfl := Option.some.inj starts_
      exact flags_of_mem mem
  simp [needsBackfill, flags]

end Backfill

end KnxTelegramStore.Postgres
