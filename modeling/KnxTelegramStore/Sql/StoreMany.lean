import KnxTelegramStore.Sql.Tables
import Mathlib.Data.List.Dedup
import Mathlib.Data.List.Forall2

/-!
`BaseSQLStore.store_many` (`base_sql.py`) and the `LookupCache` it resolves
its strings with (`lookup.py`): the statements of one transaction, with the
parameters each of them binds, and what the transaction does to the tables
when all of them succeed.
-/
namespace KnxTelegramStore.Sql

/-- `LookupCache._cache`, or a part of it: a dict from pairs to ids. -/
abbrev LookupCache := Pair → Option ℕ

/-- A statement of `store_many`, with what it binds. -/
inductive Statement where
  | insertLookup (pair : Pair)
  | selectLookups (pairs : List Pair)
  /-- an executemany: one row at a time -/
  | insertTelegrams (rows : List (Columns DateTime))
  | upsertLastGa (rows : List (Columns DateTime))

/-- The columns of `telegrams`, and of `last_ga_telegrams`. -/
def columnCount : ℕ := 14

/-- SQLite's limit of variables per statement; asyncpg has one more. -/
def parameterLimit : ℕ := 32766

/-- The parameters one execution of the statement binds. -/
def Statement.boundParameters : Statement → ℕ
  | .insertLookup _ => 2
  | .selectLookups pairs => 2 * pairs.length
  | .insertTelegrams _ => columnCount
  | .upsertLastGa rows => columnCount * rows.length

/-- The pairs of one telegram. -/
def pairsOf (t : StoredTelegram) : List Pair :=
  [(.source, t.source), (.destination, t.destination), (.telegramtype, t.telegramtype),
    (.direction, t.direction), (.sourceName, t.sourceName), (.destinationName, t.destinationName)]

/-- The set of pairs of a batch. -/
def pairs (telegrams : List StoredTelegram) : List Pair := (telegrams.flatMap pairsOf).dedup

/-- The pairs `get_or_create_ids` does not find in the cache. -/
def toResolve (cache : LookupCache) (telegrams : List StoredTelegram) : List Pair :=
  (pairs telegrams).filter fun pair => cache pair = none

/-- The missing rows are inserted one by one. -/
def StringLookup.insertAll (ids : IdSource) (lookup : StringLookup) (missing : List Pair) : StringLookup :=
  (ids.order missing).foldl (StringLookup.insertOrIgnore ids) lookup

/-- What `get_or_create_ids` returns: cached ids as they are, the others from
the re-fetch. -/
def resolve (cache : LookupCache) (lookup : StringLookup) (telegrams : List StoredTelegram) : LookupCache :=
  fun pair =>
    if pair ∈ pairs telegrams then (cache pair).orElse fun _ => lookup.idOf pair else none

/-- The dict of values of one telegram; `none` is a `KeyError`. -/
def valuesOf (lookupIds : LookupCache) (t : StoredTelegram) : Option (Columns DateTime) := do
  let sourceId ← lookupIds (.source, t.source)
  let destinationId ← lookupIds (.destination, t.destination)
  let telegramtypeId ← lookupIds (.telegramtype, t.telegramtype)
  let directionId ← lookupIds (.direction, t.direction)
  let sourceNameId ← lookupIds (.sourceName, t.sourceName)
  let destinationNameId ← lookupIds (.destinationName, t.destinationName)
  return {
    timestamp := t.timestamp
    sourceId, destinationId, telegramtypeId, directionId
    sourceNameId := some sourceNameId
    destinationNameId := some destinationNameId
    payload := t.payload
    dptMain := t.dptMain
    dptSub := t.dptSub
    value := t.value
    valueNumeric := t.valueNumeric
    rawData := t.rawData
    dataSecure := t.dataSecure }

/-- One turn of the loop over the batch: the value replaces an older one of
its destination. -/
def keepLatest (tzdb : TzDb) (latest : List (Columns DateTime)) (val : Columns DateTime) :
    Option (List (Columns DateTime)) :=
  match latest.find? (·.destinationId = val.destinationId) with
  | none => some (latest ++ [val])
  | some current => do
    let newer ← DateTime.lt? tzdb current.timestamp val.timestamp
    return if newer then latest.map fun kept => if kept.destinationId = val.destinationId then val else kept
      else latest

/-- `latest_per_destination.values()`; `none` is the `TypeError` of comparing
a naive with an aware timestamp. -/
def latestPerDestination (tzdb : TzDb) (values : List (Columns DateTime)) : Option (List (Columns DateTime)) :=
  values.foldlM (keepLatest tzdb) []

/-- The rows of an executemany get new rowids. -/
def numbered (first : ℕ) (rows : List (Columns ℤ)) : List (TelegramRow ℤ) :=
  rows.zipIdx.map fun entry => { entry.1 with rowid := first + entry.2 }

def Db.nextRowid (db : Db) : ℕ := (db.telegrams.map TelegramRow.rowid).foldr max 0 + 1

/-- `INSERT ... ON CONFLICT (destination_id) DO UPDATE ... WHERE
excluded.timestamp > last_ga_telegrams.timestamp`, for one row. -/
def upsert (summaries : List (Columns ℤ)) (row : Columns ℤ) : List (Columns ℤ) :=
  if row.destinationId ∈ summaries.map Columns.destinationId then
    summaries.map fun kept =>
      if kept.destinationId = row.destinationId ∧ kept.timestamp < row.timestamp then row else kept
  else summaries ++ [row]

theorem rowid_lt_next (db : Db) {row : TelegramRow ℤ} (mem : row ∈ db.telegrams) :
    row.rowid < db.nextRowid :=
  Nat.lt_succ_of_le (le_foldr_max (List.mem_map_of_mem (f := TelegramRow.rowid) mem))

theorem rowids_numbered (first : ℕ) (rows : List (Columns ℤ)) :
    (numbered first rows).map TelegramRow.rowid = List.range' first rows.length := by
  have shifted : (numbered first rows).map TelegramRow.rowid = (rows.zipIdx.map Prod.snd).map (first + ·) := by
    rw [numbered, List.map_map, List.map_map]
    rfl
  rw [shifted, List.zipIdx_map_snd, List.map_add_range', Nat.add_zero]

def Db.insertTelegrams (db : Db) (rows : List (Columns ℤ)) : Db :=
  { db with
    telegrams := db.telegrams ++ numbered db.nextRowid rows
    rowids_unique := by
      rw [List.map_append, rowids_numbered]
      refine db.rowids_unique.append List.nodup_range' fun id old new => ?_
      obtain ⟨row, mem, rfl⟩ := List.mem_map.mp old
      have low := (List.mem_range'_1.mp new).1
      exact absurd (rowid_lt_next db mem) (by omega) }

theorem destinations_upsert (summaries : List (Columns ℤ)) (row : Columns ℤ) :
    (upsert summaries row).map Columns.destinationId =
      if row.destinationId ∈ summaries.map Columns.destinationId then summaries.map Columns.destinationId
      else summaries.map Columns.destinationId ++ [row.destinationId] := by
  unfold upsert
  split
  · rw [List.map_map]
    refine List.map_congr_left fun kept _ => ?_
    simp only [Function.comp_apply]
    split
    · rename_i replaced
      exact replaced.1.symm
    · rfl
  · simp

theorem upsert_unique (summaries : List (Columns ℤ)) (row : Columns ℤ)
    (unique : (summaries.map Columns.destinationId).Nodup) :
    ((upsert summaries row).map Columns.destinationId).Nodup := by
  rw [destinations_upsert]
  split
  · exact unique
  · rename_i fresh
    exact unique.append (List.nodup_singleton _) (by simpa [List.disjoint_singleton] using fresh)

/-- The upsert of all the latest values. -/
def Db.upsertLastGa (db : Db) (rows : List (Columns ℤ)) : Db :=
  { db with
    lastGa := rows.foldl upsert db.lastGa
    destinations_unique := by
      have kept : ∀ (rows summaries : List (Columns ℤ)), (summaries.map Columns.destinationId).Nodup →
          ((rows.foldl upsert summaries).map Columns.destinationId).Nodup := by
        intro rows
        induction rows with
        | nil => exact fun _ unique => unique
        | cons row rows ih => exact fun summaries unique => ih _ (upsert_unique summaries row unique)
      exact kept rows db.lastGa db.destinations_unique }

/-- The transaction of `store_many` for a non-empty batch: the statements it
issues, and its effect with the ids to publish, unless one of the steps in
between raises. A statement with too many parameters is none of them here:
`statements_fit_iff` counts those. -/
def storeMany (engine : Engine) (ids : IdSource) (cache : LookupCache) (telegrams : List StoredTelegram)
    (db : Db) : List Statement × Option (Db × LookupCache) :=
  let missing := toResolve cache telegrams
  let lookup := db.lookup.insertAll ids missing
  let lookupIds := resolve cache lookup telegrams
  let resolving :=
    (ids.order missing).map Statement.insertLookup ++ if missing = [] then [] else [.selectLookups missing]
  match telegrams.mapM (valuesOf lookupIds) with
  | none => (resolving, none)
  | some values =>
    let inserting := resolving ++ [.insertTelegrams values]
    match values.mapM (Columns.bind engine) with
    | none => (inserting, none)
    | some rows =>
      match latestPerDestination engine.tzdb values with
      | none => (inserting, none)
      | some latest =>
        (inserting ++ [.upsertLastGa latest],
          (latest.mapM (Columns.bind engine)).map fun summaries =>
            (({ db with lookup }.insertTelegrams rows).upsertLastGa summaries, lookupIds))

end KnxTelegramStore.Sql
