import KnxTelegramStore.Sql.Interning

/-!
What a row of `telegrams` says, whichever of its schemas the table has, and how
the strings of flat columns come into `string_lookup`.
-/
namespace KnxTelegramStore.Sql

variable {ids : IdSource} {lookup lookup' : StringLookup} {category : Category} {columns : List Category}
variable {values : Category → List String} {value : String} {id : ℕ}

/-- What a row resolves to. A name that is NULL or has no column is empty. -/
structure ResolvedRow where
  strings : Category → String
  dptMain : Option ℤ
  dptSub : Option ℤ
  valueNumeric : Option PyFloat
  rawData : Option String

/-- `SELECT value ... WHERE id = :id AND category = :category`. -/
def StringLookup.stringOf (lookup : StringLookup) (category : Category) (id : ℕ) : Option String :=
  (lookup.rows.find? fun row => row.id = id ∧ row.category = category).map LookupRow.value

theorem stringOf_of_names (named : lookup.Names (category, value) id) : lookup.stringOf category id = some value := by
  unfold StringLookup.stringOf
  cases found : lookup.rows.find? fun row => row.id = id ∧ row.category = category with
  | none =>
    have absent := List.find?_eq_none.mp found _ named
    simp at absent
  | some row =>
    have own : row.id = id ∧ row.category = category := by simpa using List.find?_some found
    have same := StringLookup.eq_of_id (List.mem_of_find?_eq_some found) named own.1
    rw [same, Option.map_some]

/-- The id that is looked up for a string resolves to it. -/
theorem stringOf_idOf (found : lookup.idOf (category, value) = some id) : lookup.stringOf category id = some value :=
  stringOf_of_names (StringLookup.idOf_eq_some.mp found)

/-- The distinct values of flat columns are interned, column by column. -/
def StringLookup.insertColumns (ids : IdSource) (lookup : StringLookup) (columns : List Category)
    (values : Category → List String) : StringLookup :=
  columns.foldl (fun lookup category => lookup.insertAll ids ((values category).map (category, ·))) lookup

theorem grows_insertColumns (ids : IdSource) (columns : List Category) (values : Category → List String)
    (lookup : StringLookup) : lookup.Grows (lookup.insertColumns ids columns values) := by
  induction columns generalizing lookup with
  | nil => exact fun _ mem => mem
  | cons category columns ih => exact fun row mem => ih _ row (grows_insertAll ids _ lookup row mem)

/-- Then each of them has an id. -/
theorem idOf_insertColumns (ids : IdSource) (lookup : StringLookup) (own : category ∈ columns)
    (mem : value ∈ values category) :
    ∃ id, (lookup.insertColumns ids columns values).idOf (category, value) = some id := by
  induction columns generalizing lookup with
  | nil => cases own
  | cons first columns ih =>
    rcases List.mem_cons.mp own with rfl | later
    · obtain ⟨id, named⟩ := named_insertAll ids lookup (List.mem_map_of_mem (f := (category, ·)) mem)
      exact ⟨id, StringLookup.idOf_eq_some.mpr (grows_insertColumns ids columns values _ _ named)⟩
    · exact ih _ later

end KnxTelegramStore.Sql
