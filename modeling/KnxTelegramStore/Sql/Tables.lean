import KnxTelegramStore.JsonColumn
import Mathlib.Data.List.Nodup

/-!
The tables of a SQL store, with the constraints the schema declares on them
carried by the structures, and what a Python value is bound as at a column's
edge.
-/
namespace KnxTelegramStore.Sql

/-- `lookup.py::LOOKUP_CATEGORIES`. -/
inductive Category where
  | source
  | destination
  | telegramtype
  | direction
  | sourceName
  | destinationName
  deriving DecidableEq, Repr

abbrev Pair := Category × String

instance lawfulBEq_pair : LawfulBEq Pair := inferInstance

/-! ## `string_lookup` -/

structure LookupRow where
  id : ℕ
  category : Category
  value : String
  deriving DecidableEq, Repr

def LookupRow.pair (row : LookupRow) : Pair := (row.category, row.value)

/-- `string_lookup`, with its primary key and `uq_category_value`. -/
structure StringLookup where
  rows : List LookupRow := []
  ids_unique : (rows.map LookupRow.id).Nodup := by first | exact List.nodup_nil | simp
  pairs_unique : (rows.map LookupRow.pair).Nodup := by first | exact List.nodup_nil | simp

namespace StringLookup

variable {lookup : StringLookup} {row row' : LookupRow} {pair : Pair} {id : ℕ}

theorem eq_of_id (mem : row ∈ lookup.rows) (mem' : row' ∈ lookup.rows) (same : row.id = row'.id) :
    row = row' :=
  List.inj_on_of_nodup_map lookup.ids_unique mem mem' same

theorem eq_of_pair (mem : row ∈ lookup.rows) (mem' : row' ∈ lookup.rows) (same : row.pair = row'.pair) :
    row = row' :=
  List.inj_on_of_nodup_map lookup.pairs_unique mem mem' same

/-- `SELECT id ... WHERE (category, value) = pair`. -/
def idOf (lookup : StringLookup) (pair : Pair) : Option ℕ :=
  (lookup.rows.find? (·.pair = pair)).map LookupRow.id

/-- There is a row with this category, value and id. -/
def Names (lookup : StringLookup) (pair : Pair) (id : ℕ) : Prop := ⟨id, pair.1, pair.2⟩ ∈ lookup.rows

theorem Names.unique {id' : ℕ} (one : lookup.Names pair id) (other : lookup.Names pair id') : id = id' :=
  congrArg LookupRow.id (eq_of_pair one other rfl)

theorem Names.pair_unique {pair' : Pair} (one : lookup.Names pair id) (other : lookup.Names pair' id) :
    pair = pair' := by
  have same := eq_of_id one other rfl
  cases pair
  cases pair'
  simpa using same

theorem names_of_mem (mem : row ∈ lookup.rows) : lookup.Names row.pair row.id := mem

theorem idOf_eq_some : lookup.idOf pair = some id ↔ lookup.Names pair id := by
  constructor
  · intro found
    obtain ⟨row, first, rfl⟩ := Option.map_eq_some_iff.mp found
    have same : row.pair = pair := by simpa using List.find?_some first
    subst same
    exact List.mem_of_find?_eq_some first
  · intro named
    cases first : lookup.rows.find? (·.pair = pair) with
    | none =>
      have absent := List.find?_eq_none.mp first _ named
      simp [LookupRow.pair] at absent
    | some row =>
      have same : row.pair = pair := by simpa using List.find?_some first
      have equal := eq_of_pair (List.mem_of_find?_eq_some first) named (same.trans rfl)
      simp [idOf, first, equal]

end StringLookup

/-- How new rows come in: the order in which a set is gone through, and the id
the database gives each, any one that is not in use. -/
structure IdSource where
  next : StringLookup → ℕ
  fresh : ∀ lookup, next lookup ∉ lookup.rows.map LookupRow.id
  order : List Pair → List Pair := id
  order_perm : ∀ pairs, (order pairs).Perm pairs := by exact fun _ => .refl _

theorem le_foldr_max {ids : List ℕ} {id : ℕ} (mem : id ∈ ids) : id ≤ ids.foldr max 0 := by
  induction ids with
  | nil => simp at mem
  | cons first ids ih =>
    rcases List.mem_cons.mp mem with rfl | mem
    · exact le_max_left _ _
    · exact (ih mem).trans (le_max_right _ _)

/-- SQLite's choice: one above the largest. -/
def IdSource.sqlite : IdSource where
  next lookup := (lookup.rows.map LookupRow.id).foldr max 0 + 1
  fresh lookup mem := by
    have := le_foldr_max mem
    omega

/-- `INSERT OR IGNORE` and `ON CONFLICT DO NOTHING`. -/
def StringLookup.insertOrIgnore (ids : IdSource) (lookup : StringLookup) (pair : Pair) : StringLookup :=
  if known : pair ∈ lookup.rows.map LookupRow.pair then lookup
  else
    { rows := lookup.rows ++ [⟨ids.next lookup, pair.1, pair.2⟩]
      ids_unique := by
        rw [List.map_append]
        exact lookup.ids_unique.append (List.nodup_singleton _)
          (by simpa [List.disjoint_singleton] using ids.fresh lookup)
      pairs_unique := by
        rw [List.map_append]
        exact lookup.pairs_unique.append (List.nodup_singleton _)
          (by simpa [List.disjoint_singleton, LookupRow.pair] using known) }

/-! ## `telegrams` and `last_ga_telegrams` -/

/-- The columns the two tables share; `τ` is what their timestamp column
holds. -/
structure Columns (τ : Type) where
  timestamp : τ
  sourceId : ℕ
  destinationId : ℕ
  telegramtypeId : ℕ
  directionId : ℕ
  sourceNameId : Option ℕ
  destinationNameId : Option ℕ
  payload : Option Payload
  dptMain : Option ℤ
  dptSub : Option ℤ
  value : PyValue
  valueNumeric : Option PyFloat
  rawData : Option String
  dataSecure : Option Bool

/-- A row of `telegrams`. It has no key of its own: the database tells rows
apart by `rowid`, which no statement reads. -/
structure TelegramRow (τ : Type) extends Columns τ where
  rowid : ℕ

/-- The same row with its timestamp in another form. -/
def TelegramRow.map {τ τ' : Type} (f : τ → τ') (row : TelegramRow τ) : TelegramRow τ' :=
  { row with timestamp := f row.timestamp }

/-- `UtcDateTime.process_bind_param`: integer microseconds on SQLite, a value
converted to UTC on PostgreSQL, where it has to be in range. -/
def bindTimestamp (backend : Backend) (tzdb : TzDb) (value : DateTime) : Option ℤ :=
  match backend with
  | .sqlite => some (value.toMicros tzdb)
  | .postgres => (DateTime.microsToDatetime (value.toMicros tzdb)).map fun _ => value.toMicros tzdb

/-- A Python float in a `Double` column; SQLite stores a NaN as NULL. -/
def bindDouble (backend : Backend) : Option PyFloat → Option PyFloat
  | some .nan => match backend with
    | .sqlite => none
    | .postgres => some .nan
  | value => value

/-- What a transaction runs on. -/
structure Engine where
  backend : Backend
  tzdb : TzDb
  real : Reals

/-- Whether the columns take these values. -/
def storable (backend : Backend) (payload : Option Payload) (dptMain dptSub : Option ℤ) (value : PyValue) : Bool :=
  payload.all (·.json.fitsJson backend) && value.fitsJson backend && dptMain.all (backend.FitsInteger ·) &&
    dptSub.all (backend.FitsInteger ·)

/-- The row an insert writes, with JSON columns as they are read back; `none`
if a value cannot be bound, or is none for its column. -/
def Columns.bind (engine : Engine) (values : Columns DateTime) : Option (Columns ℤ) :=
  if storable engine.backend values.payload values.dptMain values.dptSub values.value then
    (bindTimestamp engine.backend engine.tzdb values.timestamp).map fun timestamp =>
      { values with
        timestamp
        payload := values.payload.map (Payload.jsonColumn engine.backend engine.real)
        value := values.value.jsonColumn engine.backend engine.real
        valueNumeric := bindDouble engine.backend values.valueNumeric }
  else none

theorem Columns.bind_some {engine : Engine} {values : Columns DateTime} {row : Columns ℤ}
    (bound : values.bind engine = some row) :
    storable engine.backend values.payload values.dptMain values.dptSub values.value = true ∧
      ∃ timestamp, bindTimestamp engine.backend engine.tzdb values.timestamp = some timestamp ∧
        row = { values with
          timestamp
          payload := values.payload.map (Payload.jsonColumn engine.backend engine.real)
          value := values.value.jsonColumn engine.backend engine.real
          valueNumeric := bindDouble engine.backend values.valueNumeric } := by
  obtain ⟨taken, bound⟩ := Option.ite_none_right_eq_some.mp bound
  obtain ⟨timestamp, instant, rfl⟩ := Option.map_eq_some_iff.mp bound
  exact ⟨taken, timestamp, instant, rfl⟩

/-- The database. `rowid` is unique, and `destination_id` is the primary key
of `last_ga_telegrams`. -/
structure Db where
  lookup : StringLookup := {}
  telegrams : List (TelegramRow ℤ) := []
  lastGa : List (Columns ℤ) := []
  rowids_unique : (telegrams.map TelegramRow.rowid).Nodup := by first | exact List.nodup_nil | simp
  destinations_unique : (lastGa.map Columns.destinationId).Nodup := by first | exact List.nodup_nil | simp

end KnxTelegramStore.Sql
