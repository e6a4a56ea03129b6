import KnxTelegramStore.Lib.LockTable
import KnxTelegramStore.Lib.Runs
import KnxTelegramStore.Sqlite.Unwrapping
import Mathlib.Data.List.Range

/-!
The backfill of rows that earlier schemas wrote
(`PostgresStore._backfill_legacy_data` in `backends/postgres.py`), as the
database runs it: any number of starts at once, each statement by statement in
a transaction of its own, between the transactions of the stores that write
and read meanwhile. A statement sees what was committed when it began and what
its own transaction wrote, a lock is held until the transaction ends, and any
statement may fail, which rolls its transaction back.

The columns `value`, `payload` and `value_numeric` are there: the same start
has added them (`_upgrade_schema`), in a transaction of its own that is over by
then. Such transactions are left out here. They change triggers and columns of
`telegrams`, and so wait for a backfill that locks it, and a backfill's SELECT
for them.
-/
namespace KnxTelegramStore.Postgres.Backfill
open LockTable
open Sqlite (wrapped)

/-! ## The passes -/

/-- What the backfill reads and writes of a row; `none` is NULL. -/
structure DataCells where
  value : Option PyValue
  payload : Option PyValue
  valueNumeric : Option PyFloat
  valueLegacyFloat : Option PyFloat

/-- `to_jsonb` of a FLOAT; a whole number is read back as an `int`. -/
def toJsonb : PyFloat → PyValue
  | .nan => .str "NaN"
  | .infinity false => .str "Infinity"
  | .infinity true => .str "-Infinity"
  | .number x => if x.den = 1 then .int x.num else .float (.number x)

/-- `value IS NULL OR value::text = 'null'` -/
def isNull : Option PyValue → Bool
  | none | some .null => true
  | _ => false

/-- `value::jsonb = jsonb_build_object('value', value::jsonb -> 'value')`: only
an object with that one key is built again from what it holds there. -/
def isWrapped (cell : Option PyValue) : Bool := (cell.bind wrapped).isSome

def unwrapCell (cell : Option PyValue) : Option PyValue :=
  match cell.bind wrapped with
  | some held => some held
  | none => cell

/-- `UPDATE telegrams SET ... WHERE ...` -/
structure Update where
  condition : DataCells → Bool
  set : DataCells → DataCells

def Update.apply (update : Update) (cells : DataCells) : DataCells :=
  if update.condition cells then update.set cells else cells

def recoverNulls : Update where
  condition cells := isNull cells.value && cells.valueNumeric.isSome
  set cells := { cells with value := cells.valueNumeric.map toJsonb }

def moveFloats : Update where
  condition cells := cells.valueNumeric.isNone && cells.valueLegacyFloat.isSome
  set cells := { cells with valueNumeric := cells.valueLegacyFloat }

def unwrapData : Update where
  condition cells := isWrapped cells.value || isWrapped cells.payload
  set cells := { cells with value := unwrapCell cells.value, payload := unwrapCell cells.payload }

/-! ## The table -/

/-- The two flags in `store_metadata`. -/
structure Flags where
  nullsRecovered : Bool := false
  dataUnwrapped : Bool := false
  deriving DecidableEq

/-- A row, and what it was inserted with and when. -/
structure Row where
  cells : DataCells
  origin : DataCells
  since : Flags

/-- What has been committed. -/
@[ext]
structure Db where
  rows : ℕ → Option Row
  inserted : ℕ
  flags : Flags
  bounded : ∀ id, inserted ≤ id → rows id = none

/-- `SELECT count(*) FROM telegrams WHERE ...` -/
def countRows (inserted : ℕ) (rows : ℕ → Option Row) (condition : DataCells → Bool) : ℕ :=
  (List.range inserted).countP fun id => (rows id).any (condition ·.cells)

def Row.update (update : Update) (row : Row) : Row := { row with cells := update.apply row.cells }

/-- The backfill in one piece: an UPDATE at a time. -/
def Db.update (db : Db) (update : Update) : Db where
  rows id := (db.rows id).map (Row.update update)
  inserted := db.inserted
  flags := db.flags
  bounded id beyond := by rw [db.bounded id beyond, Option.map_none]

def Db.nullsPass (db : Db) : Db :=
  if db.flags.nullsRecovered then db
  else { db.update recoverNulls with flags := { db.flags with nullsRecovered := true } }

/-- `legacy`: the column `value_legacy_float` exists. -/
def Db.floatPass (legacy : Bool) (db : Db) : Db := if legacy then db.update moveFloats else db

def Db.unwrapPass (db : Db) : Db :=
  if db.flags.dataUnwrapped then db
  else { db.update unwrapData with flags := { db.flags with dataUnwrapped := true } }

def Db.backfill (legacy : Bool) (db : Db) : Db := ((db.nullsPass).floatPass legacy).unwrapPass

/-! ## Locks -/

/-- The modes of locks on `telegrams` that are taken here. -/
inductive LockMode where
  | accessShare
  | rowExclusive
  | shareRowExclusive
  | accessExclusive
  deriving DecidableEq

inductive Lock where
  /-- `pg_try_advisory_xact_lock(1263425619, 1)` -/
  | advisory
  | telegrams (mode : LockMode)
  /-- the row of a flag in `store_metadata`, by whether it is `data_unwrapped` -/
  | flag (dataUnwrapped : Bool)
  deriving DecidableEq

def LockMode.conflicts : LockMode → LockMode → Bool
  | .accessExclusive, _ | _, .accessExclusive => true
  | .shareRowExclusive, .accessShare | .accessShare, .shareRowExclusive => false
  | .shareRowExclusive, _ | _, .shareRowExclusive => true
  | _, _ => false

def Lock.conflicts : Lock → Lock → Bool
  | .advisory, .advisory => true
  | .telegrams mode, .telegrams other => mode.conflicts other
  | .flag key, .flag other => key = other
  | _, _ => false

theorem Lock.conflicts_symm (first second : Lock) : first.conflicts second = second.conflicts first := by
  rcases first with _ | (_ | _ | _ | _) | (_ | _) <;> rcases second with _ | (_ | _ | _ | _) | (_ | _) <;> rfl

inductive Session where
  | start (t : ℕ)
  | client (c : ℕ)
  deriving DecidableEq

/-! ## A start -/

inductive Result where
  | committed
  /-- `RuntimeError`: another backfill holds the advisory lock -/
  | busy
  /-- `LOCK TABLE ... NOWAIT` found another lock -/
  | lockNotAvailable
  /-- `RuntimeError`: not the expected number of rows -/
  | mismatch
  | failed
  deriving DecidableEq

/-- The statement that is next. -/
inductive Pc where
  | unstarted
  | advisoryLock
  /-- the SELECTs of the flags, once more under the relation lock -/
  | readUnwrapped (again : Bool)
  | readNulls (again : Bool)
  /-- the look for legacy floats before any lock is taken -/
  | optimisticProbe
  | relationLock
  | nullsProbe
  | nullsUpdate
  | nullsRecord
  | floatProbe
  | floatUpdate
  | count
  | unwrapUpdate
  | unwrapRecord
  | committing
  | ended (result : Result)
  deriving DecidableEq

/-- The variables of `_backfill_legacy_data`, and what its transaction has
written. -/
structure Start where
  pc : Pc := .unstarted
  alreadyUnwrapped : Bool := false
  nullsRecovered : Bool := false
  legacyFloatPending : Option Bool := none
  expectedRows : ℕ := 0
  updated : ℕ → Option DataCells := fun _ => none
  recorded : Flags := {}

namespace Start

variable (legacy : Bool) (db : Db) (x : Start)

/-- The rows as the transaction sees them. -/
def rows (id : ℕ) : Option Row := (db.rows id).map fun row => { row with cells := (x.updated id).getD row.cells }

/-- What its commit leaves. -/
def commit : Db where
  rows := x.rows db
  inserted := db.inserted
  flags := ⟨db.flags.nullsRecovered || x.recorded.nullsRecovered, db.flags.dataUnwrapped || x.recorded.dataUnwrapped⟩
  bounded id beyond := by rw [rows, db.bounded id beyond, Option.map_none]

/-- `_pending(...)` -/
def pending (condition : DataCells → Bool) : Bool :=
  (List.range db.inserted).any fun id => (x.rows db id).any (condition ·.cells)

def execute (update : Update) : Start :=
  { x with
    updated := fun id =>
      match x.rows db id with
      | some row => if update.condition row.cells then some (update.set row.cells) else x.updated id
      | none => x.updated id }

/-! ### Where it goes on -/

def unwrapPass : Pc := if x.alreadyUnwrapped then .committing else .count

def floatPass : Pc :=
  if legacy then
    match x.legacyFloatPending with
    | none => .floatProbe
    | some true => .floatUpdate
    | some false => x.unwrapPass
  else x.unwrapPass

def nullsPass : Pc := if x.nullsRecovered then x.floatPass legacy else .nullsProbe

/-- After the first look at the flags. -/
def optimistic : Pc :=
  if ¬ x.alreadyUnwrapped ∨ ¬ x.nullsRecovered then .relationLock
  else if legacy then .optimisticProbe
  else x.nullsPass legacy

/-- `lock_mode` -/
def lockMode : LockMode := if x.alreadyUnwrapped then .shareRowExclusive else .accessExclusive

/-- The lock its next statement waits for. -/
def waitsFor : Option Lock :=
  match x.pc with
  | .optimisticProbe | .nullsProbe | .floatProbe | .count => some (.telegrams .accessShare)
  | .nullsUpdate | .floatUpdate | .unwrapUpdate => some (.telegrams .rowExclusive)
  | .nullsRecord => some (.flag false)
  | .unwrapRecord => some (.flag true)
  | _ => none

/-- Its next statement, once it has that lock. -/
def statement : Except Result Start :=
  match x.pc with
  | .readUnwrapped again =>
    .ok { x with alreadyUnwrapped := (x.commit db).flags.dataUnwrapped, pc := .readNulls again }
  | .readNulls again =>
    let x := { x with nullsRecovered := (x.commit db).flags.nullsRecovered }
    if again then
      let x := { x with legacyFloatPending := none }
      .ok { x with pc := x.nullsPass legacy }
    else .ok { x with pc := x.optimistic legacy }
  | .optimisticProbe =>
    let found := x.pending db moveFloats.condition
    let x := { x with legacyFloatPending := some found }
    .ok { x with pc := if found then .relationLock else x.nullsPass legacy }
  | .nullsProbe => .ok { x with pc := if x.pending db recoverNulls.condition then .nullsUpdate else .nullsRecord }
  | .nullsUpdate => .ok { x.execute db recoverNulls with pc := .nullsRecord }
  | .nullsRecord => .ok { x with recorded := { x.recorded with nullsRecovered := true }, pc := x.floatPass legacy }
  | .floatProbe => .ok { x with pc := if x.pending db moveFloats.condition then .floatUpdate else x.unwrapPass }
  | .floatUpdate => .ok { x.execute db moveFloats with pc := x.unwrapPass }
  | .count =>
    let expectedRows := countRows db.inserted (x.rows db) unwrapData.condition
    .ok { x with expectedRows, pc := if expectedRows ≠ 0 then .unwrapUpdate else .unwrapRecord }
  | .unwrapUpdate =>
    if countRows db.inserted (x.rows db) unwrapData.condition ≠ x.expectedRows then .error .mismatch
    else .ok { x.execute db unwrapData with pc := .unwrapRecord }
  | .unwrapRecord => .ok { x with recorded := { x.recorded with dataUnwrapped := true }, pc := .committing }
  | _ => .ok x

end Start

/-! ## Everyone -/

/-- What another transaction is going to commit. -/
structure Client where
  inserts : List DataCells := []
  deletes : List ℕ := []

structure State where
  db : Db
  locks : List (Session × Lock) := []
  starts : ℕ → Start := fun _ => {}
  clients : ℕ → Client := fun _ => {}

inductive Event where
  /-- a start opens the transaction of its backfill -/
  | start (t : ℕ)
  /-- its next statement goes through -/
  | next (t : ℕ)
  | fail (t : ℕ)
  /-- a client's SELECT, INSERT or DELETE -/
  | read (c : ℕ)
  | insert (c : ℕ) (value payload : Option PyValue) (valueNumeric : Option PyFloat)
  | delete (c : ℕ) (ids : List ℕ)
  | commit (c : ℕ)
  | rollback (c : ℕ)

/-- A transaction that inserts and deletes takes effect. -/
def Db.write (db : Db) (client : Client) : Db where
  rows id :=
    if id < db.inserted then if id ∈ client.deletes then none else db.rows id
    else client.inserts[id - db.inserted]?.map fun cells => ⟨cells, cells, db.flags⟩
  inserted := db.inserted + client.inserts.length
  flags := db.flags
  bounded id beyond := by
    rw [if_neg (by omega), List.getElem?_eq_none (by omega), Option.map_none]

namespace State

variable (legacy : Bool) (s : State)

def setStart (t : ℕ) (x : Start) : State := { s with starts := Function.update s.starts t x }

def setClient (c : ℕ) (client : Client) : State := { s with clients := Function.update s.clients c client }

/-- A session is given a lock, or waits. -/
def take (session : Session) (lock : Lock) : Option State :=
  if grantable Lock.conflicts s.locks session lock then some { s with locks := (session, lock) :: s.locks } else none

def unlock (session : Session) : State := { s with locks := release s.locks session }

/-- The transaction of a start ends. -/
def finish (t : ℕ) (result : Result) : State :=
  (s.unlock (.start t)).setStart t { s.starts t with pc := .ended result }

/-- The next statement of a start; `none` while it waits for a lock of another
backfill, of a writer or of a reader. -/
def next (t : ℕ) : Option State :=
  let x := s.starts t
  match x.pc with
  | .unstarted | .ended _ => none
  | .advisoryLock =>
    match s.take (.start t) .advisory with
    | some s => some (s.setStart t { x with pc := .readUnwrapped false })
    | none => some (s.finish t .busy)
  | .relationLock =>
    match s.take (.start t) (.telegrams x.lockMode) with
    | some s => some (s.setStart t { x with pc := .readUnwrapped true })
    | none => some (s.finish t .lockNotAvailable)
  | .committing => some ({ s with db := x.commit s.db }.finish t .committed)
  | _ =>
    let waited := match x.waitsFor with
      | some lock => s.take (.start t) lock
      | none => some s
    waited.map fun s =>
      match x.statement legacy s.db with
      | .ok x => s.setStart t x
      | .error result => s.finish t result

end State

def step (legacy : Bool) (s : State) : Event → Option State
  | .start t => if (s.starts t).pc = .unstarted then some (s.setStart t { pc := .advisoryLock }) else none
  | .next t => s.next legacy t
  | .fail t =>
    match (s.starts t).pc with
    | .unstarted | .ended _ => none
    | _ => some (s.finish t .failed)
  | .read c => s.take (.client c) (.telegrams .accessShare)
  | .insert c value payload valueNumeric =>
    (s.take (.client c) (.telegrams .rowExclusive)).map fun s =>
      let client := s.clients c
      s.setClient c { client with inserts := client.inserts ++ [⟨value, payload, valueNumeric, none⟩] }
  | .delete c ids =>
    (s.take (.client c) (.telegrams .rowExclusive)).map fun s =>
      let client := s.clients c
      s.setClient c { client with deletes := client.deletes ++ ids.filter (· < s.db.inserted) }
  | .commit c => some (({ s with db := s.db.write (s.clients c) }.unlock (.client c)).setClient c {})
  | .rollback c => some ((s.unlock (.client c)).setClient c {})

abbrev run (legacy : Bool) (db : Db) (events : List Event) : Option State :=
  EventMachine.run (step legacy) { db } events

end KnxTelegramStore.Postgres.Backfill
