import KnxTelegramStore.Model

/-!
The state of one buffered SQL store, `_BufferMixin` over `SqliteStore` or
`PostgresStore`, with every task that is running one of its operations.

Each public call runs in a task of its own. A task is described by the await
it is suspended at (`Pc`), with the local variables the code after it still
needs; the code between two awaits runs in one step (`Buffered.Step`). The
fields of `State` are the attributes of the mixin and the backend's part that
they meet: the rows of `telegrams` and `SqliteStore._backup_in_progress`.
Three fields only record history: `accepted`, `dropped` and the acceptance
number a telegram carries.
-/
namespace KnxTelegramStore.Buffered

/-- The constructor arguments that the mixin's behaviour depends on. -/
structure Config where
  backend : Backend
  maxBufferSize : ℕ
  maxBufferSize_pos : 1 ≤ maxBufferSize
  tzdb : TzDb

/-- A telegram accepted by `store()` or `store_sync()`. Acceptances are
numbered, so that equal telegrams stay apart. -/
structure Accepted where
  number : ℕ
  telegram : StoredTelegram

/-- A row of the `telegrams` table and the acceptance it was flushed from;
a direct `store_many()` writes rows without one. -/
structure Row where
  telegram : StoredTelegram
  number : Option ℕ

/-- Why an accepted telegram is neither pending nor stored. -/
inductive DropReason where
  | capacity
  | dataError
  | eviction
  | clear
  | neverInitialized
  deriving DecidableEq

/-! ## Where a task can be suspended -/

/-- The bodies that run behind `_write_gate()`. `evict_expired` carries the
cutoff its retention gives, `none` without one. -/
inductive Gated where
  | storeMany (telegrams : List StoredTelegram)
  | optimize
  | evictOlderThan (cutoff : DateTime) (dryRun : Bool)
  | evictExpired (cutoff : Option DateTime) (dryRun : Bool)
  | clear

/-- Who called `_flush()`. `flush` is `flush()` itself; with `reads` it is the
one at the head of `query(flush_first=True)`, `get_stats()` and
`get_last_unique_telegrams()`, which read the backing store next. -/
inductive FlushCaller where
  | flush (reads : Bool)
  | flushLoop
  | optimize
  | beginBackup
  | close
  deriving DecidableEq

/-- The `raise_on_error` argument of the call. -/
def FlushCaller.raiseOnError : FlushCaller → Bool
  | .flushLoop => false
  | _ => true

/-- What a task waiting in `_mutation()` does with the lock. -/
inductive Waiting where
  | gated (body : Gated)
  | flush (reads : Bool)
  | flushLoop
  | beginBackup
  | close

/-- How far a backend transaction is: its statements, or its commit. -/
inductive Phase where
  | executing
  | committing
  deriving DecidableEq

inductive Result where
  | returned (count : Option ℕ)
  | raised
  | cancelled
  deriving DecidableEq

/-- The await a task is suspended at. -/
inductive Pc where
  /-- no task of this id yet -/
  | unborn
  | done (result : Result)
  /-- `await self._writes_allowed.wait()` in `_write_gate` -/
  | gate (body : Gated)
  /-- `async with self._mutation_lock` -/
  | mutation (next : Waiting)
  /-- `async with self._flush_lock` in `_flush` -/
  | flushLock (caller : FlushCaller)
  /-- the gate of the nested `store_many()`, the batch already detached;
  `rows` once telegrams are written one by one -/
  | flushGate (caller : FlushCaller) (batch : List Accepted) (rows : Bool)
  /-- `await super().store_many(batch)` -/
  | flushBatch (caller : FlushCaller) (batch : List Accepted) (phase : Phase)
  /-- `await super().store_many([telegram])`, `rest` being `batch[index:]` -/
  | flushRow (caller : FlushCaller) (rest : List Accepted) (phase : Phase)
  /-- `await asyncio.sleep(self.flush_interval)` -/
  | sleeping
  /-- the backend's `store_many`, called directly -/
  | storing (telegrams : List StoredTelegram) (phase : Phase)
  | optimizing
  | beginningBackup
  /-- `await super().end_backup()`, on behalf of `close()` or not -/
  | endingBackup (closing : Bool)
  /-- the gate of the `evict_older_than()` nested in `evict_expired()` -/
  | evictGate (cutoff : DateTime) (dryRun : Bool)
  /-- `await asyncio.shield(task)`; `cancelled` in the `except` branch -/
  | awaitingEviction (child : ℕ) (cancelled : Bool)
  /-- `async with self._flush_lock` in the child task `_evict_older_than` -/
  | evictLock (cutoff : DateTime) (dryRun : Bool)
  /-- the backend's eviction with `dry_run` -/
  | counting (cutoff : DateTime)
  /-- the backend's `DELETE` -/
  | evicting (cutoff : DateTime) (phase : Phase)
  /-- what `SqliteStore.evict_older_than` runs after its `DELETE` committed -/
  | refreshing (cutoff : DateTime) (deleted : ℕ)
  /-- `async with self._flush_lock` in `clear` -/
  | clearLock
  | clearing (phase : Phase)
  /-- a read of the backing store -/
  | reading
  /-- `await self._flush_task` in `close` -/
  | awaitingFlushTask (task : ℕ)
  /-- `SqliteStore.close` releasing a backup it finds in progress -/
  | closeEndingBackup
  /-- the rest of the backend's `close` -/
  | closingBackend

namespace Pc

/-- The batch a task has taken out of the buffer and not yet settled. -/
def detached : Pc → List Accepted
  | .flushGate _ batch _ => batch
  | .flushBatch _ batch _ => batch
  | .flushRow _ rest _ => rest
  | _ => []

/-- Inside the `async with self._mutation_lock` block. -/
def holdsMutation : Pc → Bool
  | .flushLock _ | .flushGate .. | .flushBatch .. | .flushRow .. | .storing .. | .optimizing
  | .beginningBackup | .evictGate .. | .awaitingEviction .. | .clearLock | .clearing _
  | .closeEndingBackup | .closingBackend => true
  | _ => false

/-- In a `store_many` of the backend that `_flush` awaits. -/
def writes : Pc → Bool
  | .flushBatch .. | .flushRow .. => true
  | _ => false

end Pc

structure Task where
  pc : Pc := .unborn
  /-- `Task.cancel()` was called; the next resumption raises `CancelledError`. -/
  cancelRequested : Bool := false

/-! ## The store -/

structure State where
  /-- `_buffer` -/
  buffer : List Accepted := []
  /-- `_flush_lock` is held -/
  flushLock : Bool := false
  /-- `_mutation_lock` is held -/
  mutationLock : Bool := false
  /-- `_mutation_owner` -/
  mutationOwner : Option ℕ := none
  /-- `_flush_task` -/
  flushTask : Option ℕ := none
  /-- `_writes_allowed` -/
  writesAllowed : Bool := true
  /-- `_closing` -/
  closing : Bool := false
  /-- `_initialized` -/
  initialized : Bool
  /-- `SqliteStore._backup_in_progress` -/
  backupInProgress : Bool := false
  /-- the rows of `telegrams` -/
  table : List Row := []
  tasks : ℕ → Task := fun _ => {}
  /-- ids below this one name a task -/
  spawned : ℕ := 0
  /-- every telegram accepted so far, in order -/
  accepted : List StoredTelegram := []
  /-- the accepted telegrams that were dropped, and why -/
  dropped : List (Accepted × DropReason) := []

instance lawfulBEq_optionBool : LawfulBEq (Option Bool) := inferInstance

namespace State

/-- A store just constructed; `initialize()` has completed on it or never will. -/
def init (initialized : Bool) : State := { initialized }

def pc (s : State) (t : ℕ) : Pc := (s.tasks t).pc

/-- The batch of the flush in progress: the one its lock owner has detached. -/
def inFlight (s : State) : List Accepted :=
  match s.mutationOwner with
  | none => []
  | some t => (s.pc t).detached

theorem inFlight_of_none {s : State} (owner : s.mutationOwner = none) : s.inFlight = [] := by
  rw [inFlight, owner]

theorem inFlight_of_some {s : State} {t : ℕ} (owner : s.mutationOwner = some t) :
    s.inFlight = (s.pc t).detached := by
  rw [inFlight, owner]

/-- The task goes on to its next await; a cancellation it was resumed with is
used up. -/
def setPc (s : State) (t : ℕ) (pc : Pc) : State :=
  { s with tasks := Function.update s.tasks t { pc } }

/-- `asyncio.create_task`. -/
def spawn (s : State) (pc : Pc) : State :=
  { s.setPc s.spawned pc with spawned := s.spawned + 1 }

/-- `_mutation_lock` and the ownership mark are taken and given back together. -/
def acquire (s : State) (t : ℕ) : State :=
  { s with mutationLock := true, mutationOwner := some t }

def release (s : State) : State := { s with mutationLock := false, mutationOwner := none }

/-- The call ends inside its critical section. -/
def leave (s : State) (t : ℕ) (result : Result) : State := s.release.setPc t (.done result)

def mark (s : State) (t : ℕ) : State :=
  { s with tasks := Function.update s.tasks t { s.tasks t with cancelRequested := true } }

def isDone (s : State) (t : ℕ) : Bool :=
  match s.pc t with
  | .done _ => true
  | _ => false

theorem isDone_of_done {s : State} {t : ℕ} {result : Result} (done : s.pc t = .done result) : s.isDone t = true := by
  rw [isDone, done]

/-- `Task.cancel()`. A task awaiting another one passes the request on to it
as long as that one runs. -/
def requestCancel (s : State) (t : ℕ) : State :=
  match s.pc t with
  | .unborn | .done _ => s
  | .awaitingFlushTask task => if s.isDone task then s.mark t else s.mark task
  | _ => s.mark t

end State

end KnxTelegramStore.Buffered
