import KnxTelegramStore.Lib.Paging
import KnxTelegramStore.Lib.Relational
import KnxTelegramStore.Sql.StoreMany
import Mathlib.Data.List.Monad

/-!
`BaseSQLStore.query` (`base_sql.py`): its WHERE clause, the count, the page
cut out of one `ORDER BY ... OFFSET ... LIMIT`, and the lookups joined to that
page. Statements are read by standard SQL semantics. What a sort does with
equal timestamps is the database's choice (`Sorting`), made anew for every
statement. The timestamp column is of any ordered type `τ`: integers, or the
text of a file that has not been converted.
-/
namespace KnxTelegramStore.Sql
open Relational Paging

variable {τ : Type} [LinearOrder τ]

/-- `SELECT id FROM string_lookup WHERE category = :category AND value IN
(:values)`. -/
def idsOf (lookup : StringLookup) (category : Category) (values : List String) : List ℕ :=
  (lookup.rows.filter fun row => row.category = category ∧ row.value ∈ values).map LookupRow.id

/-- A filter on one interned column, if the query restricts it. -/
def idFilter (lookup : StringLookup) (category : Category) (values : List String)
    (column : Columns τ → ℕ) : List (Columns τ → Truth) :=
  if values = [] then []
  else [fun row => isIn (some (column row)) (idsOf lookup category values)]

/-- `dpt_conds`. -/
def dptConds (q : TelegramQuery) : List (Columns τ → Truth) :=
  (if q.dptMains = [] then [] else [fun row => isIn row.dptMain q.dptMains]) ++
    q.dpts.map fun entry row =>
      match entry with
      | (main, none) => eq row.dptMain main
      | (main, some sub) => and (eq row.dptMain main) (eq row.dptSub sub)

/-- The base filters, with the time bounds as the column's type has them. -/
def filters (lookup : StringLookup) (q : TelegramQuery) (start stop : Option τ) :
    List (Columns τ → Truth) :=
  idFilter lookup .source q.sources Columns.sourceId ++
    idFilter lookup .destination q.destinations Columns.destinationId ++
    idFilter lookup .telegramtype q.telegramTypes Columns.telegramtypeId ++
    idFilter lookup .direction q.directions Columns.directionId ++
    (if dptConds (τ := τ) q = [] then [] else [fun row => any ((dptConds q).map (· row))]) ++
    (start.toList.map fun bound (row : Columns τ) => some (decide (bound ≤ row.timestamp))) ++
    stop.toList.map fun bound (row : Columns τ) => some (decide (row.timestamp ≤ bound))

/-- `and_(*filters)`. -/
def conjunction (conditions : List (Columns τ → Truth)) (row : Columns τ) : Truth :=
  all (conditions.map (· row))

/-- `where_clause`. With a positive delta it is an `EXISTS` over the pivots;
`window` compares a row's timestamp with a pivot's. -/
def whereClause (lookup : StringLookup) (telegrams : List (TelegramRow τ)) (q : TelegramQuery)
    (start stop : Option τ) (window : τ → τ → Truth) : Option (Columns τ → Truth) :=
  let conditions := filters lookup q start stop
  if (0 < q.deltaBeforeMs ∨ 0 < q.deltaAfterMs) ∧ conditions ≠ [] then
    let pivots := telegrams.filter fun row => Holds (conjunction conditions row.toColumns)
    some fun row => some (pivots.any fun pivot => Holds (window row.timestamp pivot.timestamp))
  else if conditions = [] then none
  else some (conjunction conditions)

/-- The rows a statement with this WHERE clause selects. -/
def selected (telegrams : List (TelegramRow τ)) (clause : Option (Columns τ → Truth)) :
    List (TelegramRow τ) :=
  match clause with
  | none => telegrams
  | some condition => telegrams.filter fun row => Holds (condition row.toColumns)

/-! ## The page and its lookups -/

/-- A row of the page with the strings joined to it. -/
structure Fetched (τ : Type) where
  row : TelegramRow τ
  source : Option String
  destination : Option String
  telegramtype : Option String
  direction : Option String
  sourceName : Option String
  destinationName : Option String

/-- `ON lookup.id = :id AND lookup.category = :category`. -/
def onLookup (category : Category) (id : Option ℕ) (row : LookupRow) : Truth :=
  and (eq id row.id) (some (row.category = category))

/-- The values a left join gives a row. -/
def joined (lookup : StringLookup) (category : Category) (id : Option ℕ) : List (Option String) :=
  (leftMatches lookup.rows fun row => Holds (onLookup category id row)).map (Option.map LookupRow.value)

/-- One row of the page through the six joins. -/
def fetchRow (lookup : StringLookup) (row : TelegramRow τ) : List (Fetched τ) := do
  let source ← joined lookup .source (some row.sourceId)
  let destination ← joined lookup .destination (some row.destinationId)
  let telegramtype ← joined lookup .telegramtype (some row.telegramtypeId)
  let direction ← joined lookup .direction (some row.directionId)
  let sourceName ← joined lookup .sourceName row.sourceNameId
  let destinationName ← joined lookup .destinationName row.destinationNameId
  return { row, source, destination, telegramtype, direction, sourceName, destinationName }

/-- How the database sorts in one call of `query`: the page, and the result
once more after the joins. -/
structure Sorting (τ : Type) [LinearOrder τ] where
  page : Bool → List (TelegramRow τ) → List (TelegramRow τ)
  page_arranges : ∀ descending rows,
    Arranges (fun row : TelegramRow τ => row.timestamp) descending rows (page descending rows)
  result : Bool → List (Fetched τ) → List (Fetched τ)
  result_arranges : ∀ descending rows,
    Arranges (fun fetched : Fetched τ => fetched.row.timestamp) descending rows (result descending rows)

/-- Equal timestamps in the order of the table. -/
def Sorting.stable : Sorting τ where
  page descending rows := arrange (fun row => row.timestamp) descending rows
  page_arranges _ rows := arranges_arrange _ _ rows
  result descending rows := arrange (fun fetched => fetched.row.timestamp) descending rows
  result_arranges _ rows := arranges_arrange _ _ rows

open Classical in
/-- A database that sorts these rows, and this result, as given. -/
noncomputable def Sorting.choosing {descending : Bool} {rows page : List (TelegramRow τ)}
    {fetched result : List (Fetched τ)} (page_arranges : Arranges (fun row => row.timestamp) descending rows page)
    (result_arranges : Arranges (fun fetched => fetched.row.timestamp) descending fetched result) : Sorting τ where
  page descending' rows' :=
    if descending' = descending ∧ rows' = rows then page else arrange (fun row => row.timestamp) descending' rows'
  page_arranges descending' rows' := by
    split
    · rename_i same
      obtain ⟨rfl, rfl⟩ := same
      exact page_arranges
    · exact arranges_arrange _ _ rows'
  result descending' fetched' :=
    if descending' = descending ∧ fetched' = fetched then result
    else arrange (fun fetched => fetched.row.timestamp) descending' fetched'
  result_arranges descending' fetched' := by
    split
    · rename_i same
      obtain ⟨rfl, rfl⟩ := same
      exact result_arranges
    · exact arranges_arrange _ _ fetched'

/-- The page statement. -/
def fetchPage (lookup : StringLookup) (matching : List (TelegramRow τ)) (q : TelegramQuery)
    (sorting : Sorting τ) : List (Fetched τ) :=
  let page := slice q.offset q.limit (sorting.page q.orderDescending matching)
  sorting.result q.orderDescending (page.flatMap (fetchRow lookup))

/-- `process_result_value` and `StoredTelegram(...)`; `none` is an exception of
the former, or a lookup without a row, which would leave `None` where a string
has to be. -/
def Fetched.readAs (processResultValue : τ → Option DateTime) (fetched : Fetched τ) : Option StoredTelegram := do
  let timestamp ← processResultValue fetched.row.timestamp
  let source ← fetched.source
  let destination ← fetched.destination
  let telegramtype ← fetched.telegramtype
  let direction ← fetched.direction
  return {
    timestamp, source, destination, telegramtype, direction
    payload := fetched.row.payload
    dptMain := fetched.row.dptMain
    dptSub := fetched.row.dptSub
    value := fetched.row.value
    valueNumeric := fetched.row.valueNumeric
    rawData := fetched.row.rawData
    dataSecure := fetched.row.dataSecure
    sourceName := fetched.sourceName.getD ""
    destinationName := fetched.destinationName.getD "" }

/-- Out of the range of a `datetime`, an integer is an `OverflowError`. -/
def Fetched.read : Fetched ℤ → Option StoredTelegram := Fetched.readAs DateTime.microsToDatetime

/-! ## `query` on integer timestamps -/

/-- A row's timestamp within the deltas of a pivot's, in microseconds. -/
def window (q : TelegramQuery) (timestamp pivot : ℤ) : Truth :=
  and (some (pivot - q.deltaBeforeMs * 1000 ≤ timestamp)) (some (timestamp ≤ pivot + q.deltaAfterMs * 1000))

/-- The rows `query` counts and pages through. -/
def matching (tzdb : TzDb) (db : Db) (q : TelegramQuery) : List (TelegramRow ℤ) :=
  selected db.telegrams (whereClause db.lookup db.telegrams q (q.startTime.map (DateTime.toMicros tzdb))
    (q.endTime.map (DateTime.toMicros tzdb)) (window q))

/-- More rows match than this page and those before it hold. -/
def limitReached (tzdb : TzDb) (db : Db) (q : TelegramQuery) : Bool :=
  q.offset + q.limit < (matching tzdb db q).length

/-- The answer of the statements, once their parameters are bound. -/
def answer (tzdb : TzDb) (db : Db) (q : TelegramQuery) (sorting : Sorting ℤ) : Option TelegramQueryResult := do
  let telegrams ← (fetchPage db.lookup (matching tzdb db q) q sorting).mapM Fetched.read
  return {
    telegrams
    totalCount := (matching tzdb db q).length
    limitReached := limitReached tzdb db q }

/-! ## Their parameters -/

/-- The numbers of the DPT filters. -/
def dptNumbers (q : TelegramQuery) : List ℤ :=
  q.dptMains ++ q.dpts.flatMap fun entry => entry.1 :: entry.2.toList

/-- The parameters of a filter on an interned column: its category, and the
strings. -/
def idParameters (values : List String) : ℕ := if values = [] then 0 else 1 + values.length

/-- Whether the WHERE clause is an `EXISTS`; the strings that are known make no
difference to it. -/
def hasContext (tzdb : TzDb) (q : TelegramQuery) : Prop :=
  (0 < q.deltaBeforeMs ∨ 0 < q.deltaAfterMs) ∧
    filters {} q (q.startTime.map (DateTime.toMicros tzdb)) (q.endTime.map (DateTime.toMicros tzdb)) ≠ []

instance (tzdb : TzDb) (q : TelegramQuery) : Decidable (hasContext tzdb q) := inferInstanceAs (Decidable (_ ∧ _))

/-- The parameters of the page statement: the filters, the two deltas, OFFSET
and LIMIT, and the categories of the joins. -/
def pageParameters (tzdb : TzDb) (q : TelegramQuery) : ℕ :=
  idParameters q.sources + idParameters q.destinations + idParameters q.telegramTypes + idParameters q.directions +
    (dptNumbers q).length + q.startTime.toList.length + q.endTime.toList.length +
    (if hasContext tzdb q then 2 else 0) + 2 + 6

/-- A delta as it is bound: whole microseconds, or a `timedelta`. -/
def deltaFits (backend : Backend) (deltaMs : ℤ) : Prop :=
  match backend with
  | .sqlite => isInteger (deltaMs * 1000)
  | .postgres => (DateTime.timedelta? deltaMs).isSome

instance (backend : Backend) : DecidablePred (deltaFits backend) := fun deltaMs =>
  match backend with
  | .sqlite => inferInstanceAs (Decidable (isInteger (deltaMs * 1000)))
  | .postgres => inferInstanceAs (Decidable ((DateTime.timedelta? deltaMs).isSome = true))

/-- The driver takes what the query binds: integers of 64 bits (on PostgreSQL 32
for DPT numbers), bounds and deltas in range, and not too many of them. -/
structure Binds (engine : Engine) (q : TelegramQuery) : Prop where
  limit : q.limit < 2 ^ 63
  offset : q.offset < 2 ^ 63
  dpts : ∀ n ∈ dptNumbers q, engine.backend.FitsInteger n
  start : ∀ bound ∈ q.startTime.toList, (bindTimestamp engine.backend engine.tzdb bound).isSome
  stop : ∀ bound ∈ q.endTime.toList, (bindTimestamp engine.backend engine.tzdb bound).isSome
  deltas : hasContext engine.tzdb q →
    deltaFits engine.backend q.deltaBeforeMs ∧ deltaFits engine.backend q.deltaAfterMs
  count : pageParameters engine.tzdb q ≤ parameterLimit

instance (engine : Engine) (q : TelegramQuery) : Decidable (Binds engine q) :=
  decidable_of_iff
    ((q.limit < 2 ^ 63 ∧ q.offset < 2 ^ 63 ∧ pageParameters engine.tzdb q ≤ parameterLimit) ∧
      (∀ n ∈ dptNumbers q, engine.backend.FitsInteger n) ∧
      (∀ bound ∈ q.startTime.toList, (bindTimestamp engine.backend engine.tzdb bound).isSome) ∧
      (∀ bound ∈ q.endTime.toList, (bindTimestamp engine.backend engine.tzdb bound).isSome) ∧
      (hasContext engine.tzdb q →
        deltaFits engine.backend q.deltaBeforeMs ∧ deltaFits engine.backend q.deltaAfterMs))
    ⟨fun ⟨⟨limit, offset, count⟩, dpts, start, stop, deltas⟩ =>
        ⟨limit, offset, dpts, start, stop, deltas, count⟩,
      fun binds => ⟨⟨binds.limit, binds.offset, binds.count⟩, binds.dpts, binds.start, binds.stop, binds.deltas⟩⟩

/-- `BaseSQLStore.query`. A parameter that cannot be bound is an exception of
the driver. -/
def query (engine : Engine) (db : Db) (q : TelegramQuery) (sorting : Sorting ℤ) : Option TelegramQueryResult :=
  if Binds engine q then answer engine.tzdb db q sorting else none

theorem query_eq {engine : Engine} {q : TelegramQuery} (binds : Binds engine q) (db : Db) (sorting : Sorting ℤ) :
    query engine db q sorting = answer engine.tzdb db q sorting := if_pos binds

/-- The pages of a query bind what it binds. -/
theorem Binds.page {engine : Engine} {q : TelegramQuery} (binds : Binds engine q) {limit offset : ℕ}
    (limitFits : limit < 2 ^ 63) (offsetFits : offset < 2 ^ 63) (orderDescending : Bool) :
    Binds engine { q with limit, offset, orderDescending } :=
  ⟨limitFits, offsetFits, binds.dpts, binds.start, binds.stop, binds.deltas, binds.count⟩

theorem filters_unrestricted {lookup : StringLookup} {q : TelegramQuery} (free : q.Unrestricted) :
    filters (τ := τ) lookup q none none = [] := by
  simp [filters, idFilter, dptConds, free.sources, free.destinations, free.telegramTypes, free.directions,
    free.dptMains, free.dpts]

/-- A query without filters binds no more than its page. -/
theorem binds_unrestricted {engine : Engine} {q : TelegramQuery} (free : q.Unrestricted) (limit : q.limit < 2 ^ 63) :
    Binds engine q := by
  have plain : ¬ hasContext engine.tzdb q := by
    simp [hasContext, free.startTime, free.endTime, filters_unrestricted free]
  refine ⟨limit, ?_, ?_, ?_, ?_, fun context => absurd context plain, ?_⟩
  · simp [free.offset]
  · simp [dptNumbers, free.dptMains, free.dpts]
  · simp [free.startTime]
  · simp [free.endTime]
  · simp [pageParameters, plain, idParameters, dptNumbers, free.sources, free.destinations, free.telegramTypes,
      free.directions, free.dptMains, free.dpts, free.startTime, free.endTime, parameterLimit]

/-- `BaseSQLStore.count`. -/
def count (db : Db) : ℕ := db.telegrams.length

/-! ## `get_last_unique_telegrams` -/

/-- The values an inner join gives a row. -/
def innerJoined (lookup : StringLookup) (category : Category) (id : ℕ) : List String :=
  (lookup.rows.filter fun row => Holds (onLookup category (some id) row)).map LookupRow.value

/-- One summary through its joins, the first four of which are inner. -/
def fetchSummary (lookup : StringLookup) (summary : Columns ℤ) : List (Fetched ℤ) := do
  let source ← innerJoined lookup .source summary.sourceId
  let destination ← innerJoined lookup .destination summary.destinationId
  let telegramtype ← innerJoined lookup .telegramtype summary.telegramtypeId
  let direction ← innerJoined lookup .direction summary.directionId
  let sourceName ← joined lookup .sourceName summary.sourceNameId
  let destinationName ← joined lookup .destinationName summary.destinationNameId
  return {
    row := { summary with rowid := 0 }
    source := some source
    destination := some destination
    telegramtype := some telegramtype
    direction := some direction
    sourceName, destinationName }

/-- `BaseSQLStore.get_last_unique_telegrams`. -/
def getLastUniqueTelegrams (db : Db) : Option (List StoredTelegram) :=
  (db.lastGa.flatMap (fetchSummary db.lookup)).mapM Fetched.read

end KnxTelegramStore.Sql
