import KnxTelegramStore.Lib.LockTable
import KnxTelegramStore.Postgres.WriterLocks
import KnxTelegramStore.Sql.LastValues

/-!
`store_many` on PostgreSQL, statement by statement (`base_sql.py`,
`lookup.py`): any number of calls at once, each in a READ COMMITTED
transaction. A statement sees what was committed when it began and what its
own transaction has written. An insert of a pair that is not committed takes
its key, and the upsert takes its rows one after the other, inserted or not; a
statement waits while another transaction has what it needs, and what a
transaction has taken it keeps to its end.
-/
namespace KnxTelegramStore.Postgres.ReadCommitted
open Sql LockTable

/-! ## A transaction -/

/-- What transactions take. -/
inductive Key where
  /-- a row of `string_lookup`, by `uq_category_value` -/
  | lookup (pair : Pair)
  /-- a row of `last_ga_telegrams`, by its primary key -/
  | summary (destinationId : ℕ)
  deriving DecidableEq

/-- Nobody shares a key. -/
def exclusive (first second : Key) : Bool := first = second

/-- What `ON CONFLICT DO UPDATE ... WHERE` comes to for a row that has been
taken. -/
inductive Write where
  | insert (row : Columns ℤ)
  | update (row : Columns ℤ)
  | keep

def Write.of (summaries : List (Columns ℤ)) (row : Columns ℤ) : Write :=
  match summaries.find? (·.destinationId = row.destinationId) with
  | none => .insert row
  | some kept => if kept.timestamp < row.timestamp then .update row else .keep

/-- The effect of its commit. -/
def Write.apply (summaries : List (Columns ℤ)) : Write → List (Columns ℤ)
  | .insert row => insertMissing summaries row
  | .update row => summaries.map fun kept => if kept.destinationId = row.destinationId then row else kept
  | .keep => summaries

/-- The statement that is next. -/
inductive Phase where
  /-- the inserts of `get_or_create_ids` -/
  | inserting (left : List Pair)
  /-- `self.telegrams.insert()` -/
  | selected (lookupIds : LookupCache)
  /-- the rows of the upsert, then the commit -/
  | upserting (lookupIds : LookupCache) (rows left : List (Columns ℤ)) (writes : List Write)

/-- A call in its transaction, with the order in which it goes through its set
of pairs and the rows it has put into `string_lookup`. -/
structure Session where
  telegrams : List StoredTelegram
  cache : LookupCache
  order : List Pair
  lookups : List LookupRow := []
  phase : Phase

inductive Task where
  | running (session : Session)
  /-- the ids are yet to be published -/
  | committed (lookupIds : LookupCache)

/-- What `get_or_create_ids` returns, reading these rows. -/
def resolveIn (cache : LookupCache) (rows : List LookupRow) (telegrams : List StoredTelegram) : LookupCache :=
  fun pair =>
    if pair ∈ pairs telegrams then
      (cache pair).orElse fun _ => (rows.find? (·.pair = pair)).map LookupRow.id
    else none

/-! ## The database -/

/-- An insert, unless it breaks a constraint. -/
def insertRow (lookup : StringLookup) (row : LookupRow) : StringLookup :=
  if fresh : row.id ∉ lookup.rows.map LookupRow.id ∧ row.pair ∉ lookup.rows.map LookupRow.pair then
    { rows := lookup.rows ++ [row]
      ids_unique := by
        rw [List.map_append]
        exact lookup.ids_unique.append (List.nodup_singleton _) (List.disjoint_singleton.mpr fresh.1)
      pairs_unique := by
        rw [List.map_append]
        exact lookup.pairs_unique.append (List.nodup_singleton _) (List.disjoint_singleton.mpr fresh.2) }
  else lookup

theorem write_unique {summaries : List (Columns ℤ)} (unique : (summaries.map Columns.destinationId).Nodup)
    (writes : List Write) : ((writes.foldl Write.apply summaries).map Columns.destinationId).Nodup := by
  induction writes generalizing summaries with
  | nil => exact unique
  | cons write writes ih =>
    apply ih
    cases write with
    | insert row => exact insertMissing_unique unique [row]
    | update row =>
      have same : (Write.apply summaries (.update row)).map Columns.destinationId =
          summaries.map Columns.destinationId := by
        rw [Write.apply, List.map_map]
        refine List.map_congr_left fun kept _ => ?_
        rw [Function.comp_apply]
        split
        · rename_i equal
          exact equal.symm
        · rfl
      rw [same]
      exact unique
    | keep => exact unique

/-- What a commit leaves. -/
def commit (db : Db) (lookups : List LookupRow) (rows : List (Columns ℤ)) (writes : List Write) : Db :=
  let inserted := { db with lookup := lookups.foldl insertRow db.lookup }.insertTelegrams rows
  { inserted with
    lastGa := writes.foldl Write.apply inserted.lastGa
    destinations_unique := write_unique inserted.destinations_unique writes }

structure State where
  db : Db := {}
  /-- the sequence of `string_lookup.id` -/
  nextId : ℕ := 1
  locks : List (ℕ × Key) := []
  cache : LookupCache := fun _ => none
  tasks : ℕ → Option Task := fun _ => none
  /-- the telegrams of the committed rows, in the order of the commits -/
  stored : List StoredTelegram := []

inductive Event where
  | begin (task : ℕ) (telegrams : List StoredTelegram) (order : List Pair)
  | insertLookup (task : ℕ)
  | selectLookups (task : ℕ)
  | insertTelegrams (task : ℕ)
  | upsertRow (task : ℕ)
  | commit (task : ℕ)
  /-- one of its statements has failed, or its commit -/
  | rollback (task : ℕ)
  | publish (task : ℕ)
  | warm
  | restart

/-- A task goes on. -/
def State.set (s : State) (task : ℕ) (slot : Option Task) : State :=
  { s with tasks := Function.update s.tasks task slot }

def State.take (s : State) (task : ℕ) (key : Key) : State := { s with locks := (task, key) :: s.locks }

/-- An insert of a pair: it does nothing if the transaction sees the pair, and
waits for another one that has inserted it. A sequence is not rolled back. -/
def insertLookup (s : State) (task : ℕ) (x : Session) (pair : Pair) (left : List Pair) : Option State :=
  let next := { s with nextId := s.nextId + 1 }
  if pair ∈ (s.db.lookup.rows ++ x.lookups).map LookupRow.pair then
    some (next.set task (some (.running { x with phase := .inserting left })))
  else if grantable exclusive s.locks task (.lookup pair) then
    let row : LookupRow := ⟨s.nextId, pair.1, pair.2⟩
    some ((next.take task (.lookup pair)).set task
      (some (.running { x with lookups := x.lookups ++ [row], phase := .inserting left })))
  else none

/-- The values of the batch and of the upsert; `none` is an exception of
Python on the way. -/
def prepare (engine : Engine) (telegrams : List StoredTelegram) (lookupIds : LookupCache) :
    Option (List (Columns ℤ) × List (Columns ℤ)) := do
  let values ← telegrams.mapM (valuesOf lookupIds)
  let rows ← values.mapM (Columns.bind engine)
  let latest ← latestPerDestination engine.tzdb values
  let summaries ← latest.mapM (Columns.bind engine)
  return (rows, summaries)

/-- One row of the upsert. -/
def upsertRow (s : State) (task : ℕ) (x : Session) (lookupIds : LookupCache) (rows : List (Columns ℤ)) (row : Columns ℤ)
    (left : List (Columns ℤ)) (writes : List Write) : Option State :=
  if grantable exclusive s.locks task (.summary row.destinationId) then
    let writes := writes ++ [Write.of s.db.lastGa row]
    some ((s.take task (.summary row.destinationId)).set task
      (some (.running { x with phase := .upserting lookupIds rows left writes })))
  else none

def step (engine : Engine) (s : State) : Event → Option State
  | .begin task telegrams order =>
    match s.tasks task, telegrams with
    | none, _ :: _ =>
      if order.Perm (toResolve s.cache telegrams) then
        some (s.set task (some (.running { telegrams, cache := s.cache, order, phase := .inserting order })))
      else none
    | _, _ => none
  | .insertLookup task =>
    match s.tasks task with
    | some (.running x) =>
      match x.phase with
      | .inserting (pair :: left) => insertLookup s task x pair left
      | _ => none
    | _ => none
  | .selectLookups task =>
    match s.tasks task with
    | some (.running x) =>
      match x.phase with
      | .inserting [] =>
        let lookupIds := resolveIn x.cache (s.db.lookup.rows ++ x.lookups) x.telegrams
        some (s.set task (some (.running { x with phase := .selected lookupIds })))
      | _ => none
    | _ => none
  | .insertTelegrams task =>
    match s.tasks task with
    | some (.running x) =>
      match x.phase with
      | .selected lookupIds =>
        (prepare engine x.telegrams lookupIds).map fun prepared =>
          s.set task (some (.running { x with phase := .upserting lookupIds prepared.1 prepared.2 [] }))
      | _ => none
    | _ => none
  | .upsertRow task =>
    match s.tasks task with
    | some (.running x) =>
      match x.phase with
      | .upserting lookupIds rows (row :: left) writes => upsertRow s task x lookupIds rows row left writes
      | _ => none
    | _ => none
  | .commit task =>
    match s.tasks task with
    | some (.running x) =>
      match x.phase with
      | .upserting lookupIds rows [] writes =>
        some { s.set task (some (.committed lookupIds)) with
          db := commit s.db x.lookups rows writes
          locks := release s.locks task
          stored := s.stored ++ x.telegrams }
      | _ => none
    | _ => none
  | .rollback task =>
    match s.tasks task with
    | some (.running _) => some { s.set task none with locks := release s.locks task }
    | _ => none
  | .publish task =>
    match s.tasks task with
    | some (.committed lookupIds) => some { s.set task none with cache := s.cache.update lookupIds }
    | _ => none
  | .warm => some { s with cache := s.cache.warm s.db.lookup }
  | .restart => some { s with cache := fun _ => none, tasks := fun _ => none, locks := [] }

abbrev run (engine : Engine) (events : List Event) : Option State := EventMachine.run (step engine) {} events

/-- The store that has run the transactions one after the other. -/
def Task.serial : Task → Transaction
  | .running x => .open_ x.telegrams x.cache
  | .committed lookupIds => .committed lookupIds

def State.serial (s : State) : Store where
  db := s.db
  cache := s.cache
  tasks task := (s.tasks task).map Task.serial
  stored := s.stored

end KnxTelegramStore.Postgres.ReadCommitted
