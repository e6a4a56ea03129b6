import KnxTelegramStore.Lib.Runs
import KnxTelegramStore.Buffered.State

/-!
The steps of a buffered store (`buffered.py`). A step starts a call, requests
a cancellation, or resumes one suspended task with the outcome of its await
and runs it to the next one, so that tasks switch at the awaits of the mixin
and nowhere else. An await is a point where a task may switch even when the
event loop would not suspend there, and any waiter may get a free lock: both
only add interleavings.
-/
namespace KnxTelegramStore.Buffered

/-- How an await ends. A write that raises fails with a data error if
`_data_error_cause` finds one; a cancelled transaction may have taken effect
nevertheless, if its commit was already under way. -/
inductive Outcome where
  | returned
  | raised (dataError : Bool)
  | cancelled (tookEffect : Bool)
  deriving DecidableEq

def Outcome.isCancelled : Outcome → Bool
  | .cancelled _ => true
  | _ => false

/-- The public operations that suspend. -/
inductive Op where
  | storeMany (telegrams : List StoredTelegram)
  | flush
  | query (flushFirst : Bool)
  | getLastUniqueTelegrams
  | getStats
  | optimize
  | beginBackup
  | endBackup
  | evictOlderThan (cutoff : DateTime) (dryRun : Bool)
  | evictExpired (cutoff : Option DateTime) (dryRun : Bool)
  | clear
  | close

inductive Event where
  /-- `store()` or `store_sync()`, which never suspend -/
  | store (telegram : StoredTelegram)
  | start
  | call (op : Op)
  | cancel (t : ℕ)
  | resume (t : ℕ) (outcome : Outcome)

/-- `telegram.timestamp < cutoff` on a buffered telegram. -/
def isOlder (cfg : Config) (cutoff : DateTime) (item : Accepted) : Option Bool :=
  DateTime.lt? cfg.tzdb item.telegram.timestamp cutoff

/-- `telegrams.timestamp < :cutoff` on a stored row. -/
def isExpired (cfg : Config) (cutoff : DateTime) (row : Row) : Bool :=
  row.telegram.timestamp.toMicros cfg.tzdb < cutoff.toMicros cfg.tzdb

/-- The acceptances behind some rows. -/
def flushed (rows : List Row) : List Accepted :=
  rows.filterMap fun row => row.number.map fun number => ⟨number, row.telegram⟩

/-- The row a flush writes for an accepted telegram. -/
def Row.ofAccepted (item : Accepted) : Row := ⟨item.telegram, some item.number⟩

/-- The row a direct `store_many()` writes. -/
def Row.direct (telegram : StoredTelegram) : Row := ⟨telegram, none⟩

def Waiting.isClose : Waiting → Bool
  | .close => true
  | _ => false

namespace State

variable (cfg : Config) (s : State) (t : ℕ)

/-! ## The write path -/

/-- Telegrams that are given up go on record. -/
def giveUp (items : List Accepted) (reason : DropReason) : State :=
  { s with dropped := s.dropped ++ items.map fun item => (item, reason) }

/-- The telegram is appended to the buffer, which drops its oldest if full. -/
def accept (telegram : StoredTelegram) : State :=
  let item : Accepted := ⟨s.accepted.length, telegram⟩
  let surplus := if cfg.maxBufferSize ≤ s.buffer.length then 1 else 0
  { s.giveUp (s.buffer.take surplus) .capacity with
    accepted := s.accepted ++ [telegram]
    buffer := s.buffer.drop surplus ++ [item] }

/-- `store` and `store_sync`. -/
def store (telegram : StoredTelegram) : State :=
  if s.closing then s else s.accept cfg telegram

/-- `_requeue`: back in front of the buffer, which keeps its newest. -/
def requeue (telegrams : List Accepted) : State :=
  let queue := telegrams ++ s.buffer
  let surplus := queue.length - cfg.maxBufferSize
  { s.giveUp (queue.take surplus) .capacity with buffer := queue.drop surplus }

/-- Rows the backend's `store_many` has committed. -/
def persist (rows : List Row) : State := { s with table := s.table ++ rows }

def dropBuffer (reason : DropReason) : State :=
  { s.giveUp s.buffer reason with buffer := [] }

def unlockFlush : State := { s with flushLock := false }

/-- The tail of `flush()`: the periodic timer starts afresh. -/
def resetTimer : State :=
  match s.flushTask with
  | none => s
  | some task =>
    if s.closing then s
    else { (s.requestCancel task).spawn .sleeping with flushTask := some s.spawned }

/-- `close()` of the backend. `SqliteStore.close` ends a backup it finds in
progress through the mixin's `end_backup()`, which refuses while writes are
allowed. -/
def closeBackend : State :=
  if cfg.backend = .sqlite ∧ s.backupInProgress then
    if s.writesAllowed then s.leave t .raised
    else { s with backupInProgress := false }.setPc t .closeEndingBackup
  else s.setPc t .closingBackend

/-- What follows a `_flush()` that returned. -/
def afterFlush : FlushCaller → State
  | .flush reads =>
    s.release.resetTimer.setPc t (if reads then .reading else .done (.returned none))
  | .flushLoop =>
    s.release.setPc t (if s.closing then .done (.returned none) else .sleeping)
  | .optimize => s.resetTimer.setPc t .optimizing
  | .beginBackup => s.setPc t .beginningBackup
  | .close => s.closeBackend cfg t

/-- What follows a `_flush()` that raised. The loop catches everything and
ends when it was cancelled. -/
def failFlush (result : Result) : FlushCaller → State
  | .flushLoop => s.leave t (.returned none)
  | _ => s.leave t result

/-- `_flush` from inside `_mutation()` to its first await. -/
def startFlush (caller : FlushCaller) : State :=
  if s.writesAllowed then s.setPc t (.flushLock caller) else s.afterFlush cfg t caller

/-- `_flush` from inside `_flush_lock`: the batch leaves the buffer. -/
def detachBatch (caller : FlushCaller) : State :=
  if s.buffer = [] then s.afterFlush cfg t caller
  else { s with flushLock := true, buffer := [] }.setPc t (.flushGate caller s.buffer false)

/-- The row-by-row loop of `_flush`, with the telegrams still to write. -/
def nextRow (caller : FlushCaller) : List Accepted → State
  | [] => s.unlockFlush.afterFlush cfg t caller
  | rest => s.setPc t (.flushGate caller rest true)

/-- A write of `_flush` failed for the database's sake. -/
def keepBatch (caller : FlushCaller) (batch : List Accepted) : State :=
  let s := (s.requeue cfg batch).unlockFlush
  if caller.raiseOnError then s.failFlush t .raised caller else s.afterFlush cfg t caller

/-- A write of `_flush` was cancelled; what it had written stays if the commit
took effect. -/
def cancelWrite (caller : FlushCaller) (written batch : List Accepted) (tookEffect : Bool) : State :=
  let s := if tookEffect then s.persist (written.map Row.ofAccepted) else s
  (s.requeue cfg batch).unlockFlush.failFlush t .cancelled caller

/-! ## Eviction, clear, backup and close -/

def startEviction (cutoff : DateTime) (dryRun : Bool) : State :=
  (s.spawn (.evictLock cutoff dryRun)).setPc t (.awaitingEviction s.spawned false)

/-- The backend's `DELETE ... WHERE timestamp < :cutoff`. -/
def deleteExpired (cutoff : DateTime) : State :=
  { s.giveUp (flushed (s.table.filter (isExpired cfg cutoff))) .eviction with
    table := s.table.filter (!isExpired cfg cutoff ·) }

/-- The buffered telegrams below the cutoff are evicted too. -/
def dropOlder (cutoff : DateTime) : State :=
  { s.giveUp (s.buffer.filter (isOlder cfg cutoff · == some true)) .eviction with
    buffer := s.buffer.filter (!isOlder cfg cutoff · == some true) }

/-- The tail of `_evict_older_than`, which raises where comparing a buffered
telegram does. -/
def finishEviction (cutoff : DateTime) (deleted : ℕ) : State :=
  let older := s.buffer.map (isOlder cfg cutoff)
  if none ∈ older then s.unlockFlush.setPc t (.done .raised)
  else
    (s.dropOlder cfg cutoff).unlockFlush.setPc t
      (.done (.returned (some (deleted + older.count (some true)))))

/-- The tail of `_evict_older_than` with `dry_run`. -/
def finishCount (cutoff : DateTime) : State :=
  let older := s.buffer.map (isOlder cfg cutoff)
  s.unlockFlush.setPc t <| .done <|
    if none ∈ older then .raised
    else .returned (some (s.table.countP (isExpired cfg cutoff) + older.count (some true)))

/-- The backend's `clear()`. -/
def deleteAll : State :=
  { s.giveUp (flushed s.table) .clear with table := [] }

/-- `end_backup()` of the mixin while writes are held off. -/
def endBackup (closing : Bool) : State :=
  if cfg.backend = .sqlite ∧ ¬ s.backupInProgress then
    { s with writesAllowed := true }.setPc t (.done .raised)
  else { s with backupInProgress := false }.setPc t (.endingBackup closing)

/-- `close()` once no backup is in progress: the flush task is stopped. -/
def stopFlushTask : State :=
  match s.flushTask with
  | none => s.setPc t (.mutation .close)
  | some task => (s.requestCancel task).setPc t (.awaitingFlushTask task)

/-- `close()` to its first await. -/
def startClose : State :=
  let s := { s with closing := true }
  if s.writesAllowed then s.stopFlushTask t else s.endBackup cfg t true

/-! ## Entering the critical section -/

/-- The body behind `_write_gate()`. -/
def enterGated : Gated → State
  | .storeMany telegrams => s.setPc t (.storing telegrams .executing)
  | .optimize => s.startFlush cfg t .optimize
  | .evictOlderThan cutoff dryRun => s.startEviction t cutoff dryRun
  | .evictExpired none _ => s.leave t (.returned (some 0))
  | .evictExpired (some cutoff) dryRun => s.setPc t (.evictGate cutoff dryRun)
  | .clear => s.setPc t .clearLock

/-- What a task does with the mutation lock it just got. -/
def enter : Waiting → State
  | .gated body =>
    -- a backup began while it waited: back to the gate
    if s.writesAllowed then (s.acquire t).enterGated cfg t body else s.setPc t (.gate body)
  | .flush reads => (s.acquire t).startFlush cfg t (.flush reads)
  | .flushLoop => (s.acquire t).startFlush cfg t .flushLoop
  | .beginBackup =>
    if s.writesAllowed then (s.acquire t).startFlush cfg t .beginBackup
    else s.setPc t (.done .raised)
  | .close =>
    if s.initialized then (s.acquire t).startFlush cfg t .close
    else ((s.acquire t).dropBuffer .neverInitialized).closeBackend cfg t

/-- `raise RuntimeError("Store is closing")`, which ends the flush loop. -/
def refuse : Waiting → State
  | .flushLoop => s.setPc t (.done (.returned none))
  | _ => s.setPc t (.done .raised)

/-! ## Resuming a task -/

def resume : Pc → Outcome → Option State
  | .unborn, _ => none
  | .done _, _ => none
  | .gate body, .returned => some (s.setPc t (.mutation (.gated body)))
  | .gate _, .cancelled false => some (s.setPc t (.done .cancelled))
  | .mutation next, .returned =>
    if s.mutationLock then none
    else if s.closing ∧ ¬ next.isClose then some (s.refuse t next)
    else some (s.enter cfg t next)
  | .mutation .flushLoop, .cancelled false => some (s.setPc t (.done (.returned none)))
  | .mutation _, .cancelled false => some (s.setPc t (.done .cancelled))
  | .flushLock caller, .returned => if s.flushLock then none else some (s.detachBatch cfg t caller)
  | .flushLock caller, .cancelled false => some (s.failFlush t .cancelled caller)
  | .flushGate caller batch rows, .returned =>
    some (s.setPc t (if ¬ s.writesAllowed then .flushGate caller batch rows
      else if rows then .flushRow caller batch .executing else .flushBatch caller batch .executing))
  | .flushGate caller batch _, .cancelled false => some (s.cancelWrite cfg t caller [] batch false)
  | .flushBatch caller batch .executing, .returned => some (s.setPc t (.flushBatch caller batch .committing))
  | .flushBatch caller batch .committing, .returned =>
    some ((s.persist (batch.map Row.ofAccepted)).unlockFlush.afterFlush cfg t caller)
  | .flushBatch caller batch _, .raised true => some (s.nextRow cfg t caller batch)
  | .flushBatch caller batch _, .raised false => some (s.keepBatch cfg t caller batch)
  | .flushBatch caller batch .executing, .cancelled false =>
    some (s.cancelWrite cfg t caller batch batch false)
  | .flushBatch caller batch .committing, .cancelled tookEffect =>
    some (s.cancelWrite cfg t caller batch batch tookEffect)
  | .flushRow caller rest .executing, .returned => some (s.setPc t (.flushRow caller rest .committing))
  | .flushRow caller rest .committing, .returned =>
    some ((s.persist ((rest.take 1).map Row.ofAccepted)).nextRow cfg t caller rest.tail)
  | .flushRow caller rest _, .raised true =>
    some ((s.giveUp (rest.take 1) .dataError).nextRow cfg t caller rest.tail)
  | .flushRow caller rest _, .raised false => some (s.keepBatch cfg t caller rest)
  | .flushRow caller rest .executing, .cancelled false =>
    some (s.cancelWrite cfg t caller (rest.take 1) rest false)
  | .flushRow caller rest .committing, .cancelled tookEffect =>
    some (s.cancelWrite cfg t caller (rest.take 1) rest tookEffect)
  | .sleeping, .returned => some (s.setPc t (.mutation .flushLoop))
  | .sleeping, .cancelled false => some (s.setPc t (.done (.returned none)))
  | .storing telegrams .executing, .returned => some (s.setPc t (.storing telegrams .committing))
  | .storing telegrams .committing, .returned =>
    some ((s.persist (telegrams.map Row.direct)).leave t (.returned none))
  | .storing _ _, .raised _ => some (s.leave t .raised)
  | .storing _ .executing, .cancelled false => some (s.leave t .cancelled)
  | .storing telegrams .committing, .cancelled tookEffect =>
    some ((if tookEffect then s.persist (telegrams.map Row.direct) else s).leave t .cancelled)
  | .optimizing, .returned => some (s.leave t (.returned none))
  | .optimizing, .raised _ => some (s.leave t .raised)
  | .optimizing, .cancelled false => some (s.leave t .cancelled)
  | .beginningBackup, .returned =>
    some (if s.backupInProgress then s.leave t .raised
      else { s with writesAllowed := false, backupInProgress := cfg.backend == Backend.sqlite }.leave t
        (.returned none))
  | .beginningBackup, .raised _ => some (s.leave t .raised)
  | .beginningBackup, .cancelled false => some (s.leave t .cancelled)
  | .endingBackup false, .returned => some ({ s with writesAllowed := true }.setPc t (.done (.returned none)))
  | .endingBackup true, .returned => some ({ s with writesAllowed := true }.stopFlushTask t)
  | .endingBackup _, .raised _ => some ({ s with writesAllowed := true }.setPc t (.done .raised))
  | .endingBackup _, .cancelled false => some ({ s with writesAllowed := true }.setPc t (.done .cancelled))
  | .evictGate cutoff dryRun, .returned =>
    some (if s.writesAllowed then s.startEviction t cutoff dryRun else s.setPc t (.evictGate cutoff dryRun))
  | .evictGate _ _, .cancelled false => some (s.leave t .cancelled)
  | .awaitingEviction child cancelled, .returned =>
    match s.pc child with
    | .done result => some (s.leave t (if cancelled then .cancelled else result))
    | _ => none
  | .awaitingEviction child _, .cancelled false =>
    some (if s.isDone child then s.leave t .cancelled else s.setPc t (.awaitingEviction child true))
  | .evictLock cutoff dryRun, .returned =>
    if s.flushLock then none
    else some ({ s with flushLock := true }.setPc t
      (if dryRun then .counting cutoff else .evicting cutoff .executing))
  | .evictLock _ _, .cancelled false => some (s.setPc t (.done .cancelled))
  | .counting cutoff, .returned => some (s.finishCount cfg t cutoff)
  | .counting _, .raised _ => some (s.unlockFlush.setPc t (.done .raised))
  | .counting _, .cancelled false => some (s.unlockFlush.setPc t (.done .cancelled))
  | .evicting cutoff .executing, .returned => some (s.setPc t (.evicting cutoff .committing))
  | .evicting cutoff .committing, .returned =>
    let deleted := s.table.countP (isExpired cfg cutoff)
    some (match cfg.backend with
      | .sqlite => (s.deleteExpired cfg cutoff).setPc t (.refreshing cutoff deleted)
      | .postgres => (s.deleteExpired cfg cutoff).finishEviction cfg t cutoff deleted)
  | .evicting _ _, .raised _ => some (s.unlockFlush.setPc t (.done .raised))
  | .evicting _ .executing, .cancelled false => some (s.unlockFlush.setPc t (.done .cancelled))
  | .evicting cutoff .committing, .cancelled tookEffect =>
    some ((if tookEffect then s.deleteExpired cfg cutoff else s).unlockFlush.setPc t (.done .cancelled))
  | .refreshing cutoff deleted, .returned => some (s.finishEviction cfg t cutoff deleted)
  | .refreshing _ _, .raised _ => some (s.unlockFlush.setPc t (.done .raised))
  | .refreshing _ _, .cancelled false => some (s.unlockFlush.setPc t (.done .cancelled))
  | .clearLock, .returned =>
    if s.flushLock then none
    else some ({ s.dropBuffer .clear with flushLock := true }.setPc t (.clearing .executing))
  | .clearLock, .cancelled false => some (s.leave t .cancelled)
  | .clearing .executing, .returned => some (s.setPc t (.clearing .committing))
  | .clearing .committing, .returned => some (s.deleteAll.unlockFlush.leave t (.returned none))
  | .clearing _, .raised _ => some (s.unlockFlush.leave t .raised)
  | .clearing .executing, .cancelled false => some (s.unlockFlush.leave t .cancelled)
  | .clearing .committing, .cancelled tookEffect =>
    some ((if tookEffect then s.deleteAll else s).unlockFlush.leave t .cancelled)
  | .reading, .returned => some (s.setPc t (.done (.returned none)))
  | .reading, .raised _ => some (s.setPc t (.done .raised))
  | .reading, .cancelled false => some (s.setPc t (.done .cancelled))
  | .awaitingFlushTask task, .returned | .awaitingFlushTask task, .cancelled false =>
    -- `except asyncio.CancelledError: pass` also swallows a cancellation of close() itself
    if s.isDone task then some ({ s with flushTask := none }.setPc t (.mutation .close)) else none
  | .closeEndingBackup, .returned => some ({ s with writesAllowed := true }.setPc t .closingBackend)
  | .closeEndingBackup, .raised _ => some ({ s with writesAllowed := true }.leave t .raised)
  | .closeEndingBackup, .cancelled false => some ({ s with writesAllowed := true }.leave t .cancelled)
  | .closingBackend, .returned => some (s.leave t (.returned none))
  | .closingBackend, .raised _ => some (s.leave t .raised)
  | .closingBackend, .cancelled false => some (s.leave t .cancelled)
  | _, _ => none

/-- `start()`. -/
def start : State :=
  if s.closing ∨ s.flushTask.isSome then s
  else { s.spawn .sleeping with flushTask := some s.spawned }

/-- A task begins one operation and runs to its first await. -/
def call : Op → State
  | .storeMany telegrams => s.spawn (.gate (.storeMany telegrams))
  | .flush => s.spawn (.mutation (.flush false))
  | .query flushFirst => s.spawn (if flushFirst then .mutation (.flush true) else .reading)
  | .getLastUniqueTelegrams | .getStats => s.spawn (.mutation (.flush true))
  | .optimize => s.spawn (.gate .optimize)
  | .beginBackup => s.spawn (.mutation .beginBackup)
  | .endBackup =>
    if s.writesAllowed then s.spawn (.done .raised)
    else { s with spawned := s.spawned + 1 }.endBackup cfg s.spawned false
  | .evictOlderThan cutoff dryRun => s.spawn (.gate (.evictOlderThan cutoff dryRun))
  | .evictExpired cutoff dryRun => s.spawn (.gate (.evictExpired cutoff dryRun))
  | .clear => s.spawn (.gate .clear)
  | .close => { s with spawned := s.spawned + 1 }.startClose cfg s.spawned

end State

/-- One step of the store. A task resumes with `CancelledError` exactly when
its cancellation was requested. -/
def step (cfg : Config) (s : State) : Event → Option State
  | .store telegram => some (s.store cfg telegram)
  | .start => some s.start
  | .call op => some (s.call cfg op)
  | .cancel t => some (s.requestCancel t)
  | .resume t outcome =>
    if outcome.isCancelled = (s.tasks t).cancelRequested then s.resume cfg t (s.pc t) outcome else none

/-- A step that resumes a task is enabled by the task's cancellation flag. -/
theorem step_resume {cfg : Config} {s s' : State} {t : ℕ} {outcome : Outcome}
    (taken : step cfg s (.resume t outcome) = some s') :
    outcome.isCancelled = (s.tasks t).cancelRequested ∧ s.resume cfg t (s.pc t) outcome = some s' := by
  have resumed : (if outcome.isCancelled = (s.tasks t).cancelRequested then
      s.resume cfg t (s.pc t) outcome else none) = some s' := taken
  split at resumed
  · rename_i requested
    exact ⟨requested, resumed⟩
  · cases resumed

/-- A parent wakes up when its child is done. -/
theorem resume_awaitingEviction {cfg : Config} {s s' : State} {t child : ℕ} {cancelled : Bool}
    (taken : s.resume cfg t (.awaitingEviction child cancelled) .returned = some s') :
    ∃ result, s.pc child = .done result ∧ s' = s.leave t (if cancelled then .cancelled else result) := by
  have ended : (match s.pc child with
    | .done result => some (s.leave t (if cancelled then .cancelled else result))
    | _ => none) = some s' := taken
  split at ended
  · rename_i result done
    exact ⟨result, done, (Option.some.inj ended).symm⟩
  · cases ended

/-- A write of `_flush`, of the whole batch or of one telegram of it. -/
def Pc.write (caller : FlushCaller) (rest : List Accepted) : Bool → Phase → Pc
  | false, phase => .flushBatch caller rest phase
  | true, phase => .flushRow caller rest phase

/-- How many of the telegrams still to write one write takes. -/
def writeSize (rest : List Accepted) : Bool → ℕ
  | false => rest.length
  | true => 1

/-- How a write of `_flush` goes on or ends. -/
inductive WriteEnds (cfg : Config) (s : State) (t : ℕ) (caller : FlushCaller) (rest : List Accepted) (rows : Bool) :
    Outcome → State → Prop where
  | executed : WriteEnds cfg s t caller rest rows .returned (s.setPc t (.write caller rest rows .committing))
  | stored : WriteEnds cfg s t caller rest rows .returned
      ((s.persist ((rest.take (writeSize rest rows)).map Row.ofAccepted)).nextRow cfg t caller
        (rest.drop (writeSize rest rows)))
  | split : rows = false → WriteEnds cfg s t caller rest rows (.raised true) (s.nextRow cfg t caller rest)
  | rejected : rows = true → WriteEnds cfg s t caller rest rows (.raised true)
      ((s.giveUp (rest.take 1) .dataError).nextRow cfg t caller (rest.drop 1))
  | kept : WriteEnds cfg s t caller rest rows (.raised false) (s.keepBatch cfg t caller rest)
  | cancelled (tookEffect : Bool) : WriteEnds cfg s t caller rest rows (.cancelled tookEffect)
      (s.cancelWrite cfg t caller (rest.take (writeSize rest rows)) rest tookEffect)

/-- Every outcome of a write of `_flush`, in both phases. -/
theorem resume_write {cfg : Config} {s s' : State} {t : ℕ} {caller : FlushCaller} {rest : List Accepted} (rows : Bool)
    {phase : Phase} {outcome : Outcome} (taken : s.resume cfg t (.write caller rest rows phase) outcome = some s') :
    WriteEnds cfg s t caller rest rows outcome s' := by
  rcases outcome with _ | dataError | tookEffect
  case returned =>
    cases phase with
    | executing =>
      cases rows <;> (obtain rfl := Option.some.inj taken; exact .executed)
    | committing =>
      cases rows with
      | false =>
        have ended : WriteEnds cfg s t caller rest false .returned _ := .stored
        rw [writeSize, List.take_length, List.drop_length] at ended
        obtain rfl := Option.some.inj taken
        exact ended
      | true =>
        have ended : WriteEnds cfg s t caller rest true .returned _ := .stored
        rw [writeSize, List.drop_one] at ended
        obtain rfl := Option.some.inj taken
        exact ended
  case raised =>
    cases dataError with
    | true =>
      cases rows with
      | false =>
        have ended : some (s.nextRow cfg t caller rest) = some s' := by cases phase <;> exact taken
        obtain rfl := Option.some.inj ended
        exact .split rfl
      | true =>
        have ended : some ((s.giveUp (rest.take 1) .dataError).nextRow cfg t caller rest.tail) = some s' := by
          cases phase <;> exact taken
        obtain rfl := Option.some.inj ended
        rw [← List.drop_one]
        exact .rejected rfl
    | false =>
      have ended : some (s.keepBatch cfg t caller rest) = some s' := by cases rows <;> cases phase <;> exact taken
      obtain rfl := Option.some.inj ended
      exact .kept
  case cancelled =>
    have ended : some (s.cancelWrite cfg t caller (rest.take (writeSize rest rows)) rest tookEffect) = some s' := by
      cases rows with
      | false =>
        rw [writeSize, List.take_length]
        cases phase <;> cases tookEffect <;> first | exact taken | cases taken
      | true => cases phase <;> cases tookEffect <;> first | exact taken | cases taken
    obtain rfl := Option.some.inj ended
    exact .cancelled tookEffect

/-- The state after a run of a store whose `initialize()` has completed, or
has not. -/
abbrev run (cfg : Config) (initialized : Bool) (events : List Event) : Option State :=
  EventMachine.run (step cfg) (State.init initialized) events

end KnxTelegramStore.Buffered
