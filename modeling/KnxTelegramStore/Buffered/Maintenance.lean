import KnxTelegramStore.Buffered.State
import KnxTelegramStore.Lib.Runs
import KnxTelegramStore.Sqlite.UtcMigration

/-!
`clear` and `evict_older_than` of a buffered SQLite store, statement by
statement, from where the call has its locks: nothing but `store()` reaches the
buffer meanwhile, and nothing at all the tables. A statement that fails rolls
its transaction back, but neither the transaction before it nor what the call
has done to the buffer. `failed_call_iff` says which failures leave everything
as it was.
-/
namespace KnxTelegramStore.Buffered
open EventMachine
open Sql (Db TelegramRow)
open Sqlite (evictOlderThan)

inductive MaintenanceCall where
  | clear
  | evictOlderThan (cutoff : DateTime)

/-- The statement a call waits for, or how it ended. -/
inductive Waits where
  | begin
  | deleteTelegrams
  | deleteLastGa
  | commitDelete
  | beginStatistics
  | readStatistics
  | analyze
  | commitStatistics
  /-- the connection for `PRAGMA wal_checkpoint(TRUNCATE)` -/
  | connect
  | checkpoint
  | returned
  | raised
  deriving DecidableEq

/-- The store of a call. -/
structure Maintained where
  cfg : Config
  readOnly : Bool
  isMemory : Bool
  /-- `_statistics_stale`, of a table that is not empty -/
  statisticsStale : Db → Bool

/-- The last two fields record history: the telegrams stored since the call
began, and how many of its statements succeeded. -/
structure CallState where
  buffer : List StoredTelegram
  /-- what is committed -/
  db : Db
  /-- what the transaction under way sees -/
  working : Db
  /-- `result.rowcount` -/
  deleted : ℕ := 0
  waits : Waits
  stored : List StoredTelegram := []
  succeeded : ℕ := 0

inductive CallEvent where
  | store (telegram : StoredTelegram)
  | succeed
  | fail

/-- `store()`. -/
def appended (maxBufferSize : ℕ) (buffer : List StoredTelegram) (telegram : StoredTelegram) : List StoredTelegram :=
  (if maxBufferSize ≤ buffer.length then buffer.tail else buffer) ++ [telegram]

/-- `self._buffer.clear()` comes first in `clear`. -/
def MaintenanceCall.kept (call : MaintenanceCall) (buffer : List StoredTelegram) : List StoredTelegram :=
  match call with
  | .clear => []
  | .evictOlderThan _ => buffer

/-- The call up to its first statement; `_ensure_writable` is in between. -/
def Maintained.start (store : Maintained) (call : MaintenanceCall) (buffer : List StoredTelegram) (db : Db) :
    CallState where
  buffer := call.kept buffer
  db := db
  working := db
  waits := if store.readOnly then .raised else .begin

/-- `_evict_older_than` behind the backend's eviction: a naive cutoff and an
aware telegram raise, or the other way round. -/
def Maintained.pruneBuffer (store : Maintained) (cutoff : DateTime) (s : CallState) : CallState :=
  let older := fun t : StoredTelegram => DateTime.lt? store.cfg.tzdb t.timestamp cutoff
  if none ∈ s.buffer.map older then { s with waits := .raised }
  else { s with buffer := s.buffer.filter (older · == some false), waits := .returned }

/-- The statement succeeds that the call waits for. -/
def Maintained.succeed (store : Maintained) (s : CallState) : MaintenanceCall → Option CallState
  | .clear =>
    match s.waits with
    | .begin => some { s with waits := .deleteTelegrams }
    | .deleteTelegrams => some { s with
        working := { s.working with telegrams := [], rowids_unique := List.nodup_nil }
        waits := .deleteLastGa }
    | .deleteLastGa => some { s with
        working := { s.working with lastGa := [], destinations_unique := List.nodup_nil }
        waits := .commitDelete }
    | .commitDelete => some { s with db := s.working, waits := .returned }
    | _ => none
  | .evictOlderThan cutoff =>
    match s.waits with
    | .begin => some { s with waits := .deleteTelegrams }
    | .deleteTelegrams =>
      let micros := cutoff.toMicros store.cfg.tzdb
      some { s with
        working := evictOlderThan s.working micros
        deleted := s.working.telegrams.countP (·.timestamp < micros)
        waits := .commitDelete }
    | .commitDelete => some { s with db := s.working, waits := .beginStatistics }
    | .beginStatistics => some { s with waits := .readStatistics }
    | .readStatistics =>
      some { s with waits := if store.statisticsStale s.working then .analyze else .commitStatistics }
    | .analyze => some { s with waits := .commitStatistics }
    | .commitStatistics =>
      if 0 < s.deleted ∧ !store.isMemory then some { s with waits := .connect } else some (store.pruneBuffer cutoff s)
    | .connect => some { s with waits := .checkpoint }
    | .checkpoint => some (store.pruneBuffer cutoff s)
    | .deleteLastGa | .returned | .raised => none

def CallState.ended (s : CallState) : Bool := s.waits = .returned ∨ s.waits = .raised

def Maintained.step (store : Maintained) (call : MaintenanceCall) (s : CallState) : CallEvent → Option CallState
  | .store telegram =>
    if s.ended then none
    else some { s with
      buffer := appended store.cfg.maxBufferSize s.buffer telegram
      stored := s.stored ++ [telegram] }
  | .succeed => (store.succeed s call).map fun s => { s with succeeded := s.succeeded + 1 }
  -- `engine.begin()` rolls back
  | .fail => if s.ended then none else some { s with working := s.db, waits := .raised }

/-- As before the call, but for what has been stored meanwhile. -/
structure Restored (store : Maintained) (buffer : List StoredTelegram) (db : Db) (s : CallState) : Prop where
  telegrams : s.db.telegrams = db.telegrams
  lastGa : s.db.lastGa = db.lastGa
  buffer : s.buffer = s.stored.foldl (appended store.cfg.maxBufferSize) buffer

/-- A `clear` that had nothing to take out of the buffer, or nothing that the
telegrams stored meanwhile have left there; an eviction that failed in its
first transaction, or found nothing in the table. -/
def Harmless (store : Maintained) (buffer : List StoredTelegram) (db : Db) (s : CallState) : MaintenanceCall → Prop
  | .clear => buffer = [] ∨ store.cfg.maxBufferSize ≤ s.stored.length
  | .evictOlderThan cutoff =>
    s.succeeded < 3 ∨ ∀ row ∈ db.telegrams, cutoff.toMicros store.cfg.tzdb ≤ row.timestamp

variable {store : Maintained} {call : MaintenanceCall} {buffer : List StoredTelegram} {db : Db} {s s' : CallState}

/-! ## The buffer -/

/-- The buffer keeps the newest telegrams. -/
theorem foldl_appended {n : ℕ} (positive : 1 ≤ n) (telegrams buffer : List StoredTelegram)
    (bounded : buffer.length ≤ n) :
    telegrams.foldl (appended n) buffer = (buffer ++ telegrams).drop (buffer.length + telegrams.length - n) := by
  induction telegrams generalizing buffer with
  | nil =>
    have nothing : buffer.length + 0 - n = 0 := by omega
    rw [List.foldl_nil, List.append_nil, List.length_nil, nothing, List.drop_zero]
  | cons telegram telegrams ih =>
    rw [List.foldl_cons]
    by_cases full : n ≤ buffer.length
    · obtain ⟨oldest, rest, rfl⟩ := List.exists_cons_of_length_pos (lt_of_lt_of_le positive full)
      have length : (rest ++ [telegram]).length = rest.length + 1 := List.length_append
      have dropped : (oldest :: rest).length + (telegram :: telegrams).length - n =
          (rest ++ [telegram]).length + telegrams.length - n + 1 := by
        simp only [List.length_cons] at full bounded ⊢
        omega
      have shape : oldest :: rest ++ telegram :: telegrams = oldest :: (rest ++ [telegram] ++ telegrams) := by simp
      rw [appended, if_pos full, List.tail_cons, ih _ (by rw [length]; exact bounded), dropped, shape,
        List.drop_succ_cons]
    · have length : (buffer ++ [telegram]).length = buffer.length + 1 := List.length_append
      have dropped : buffer.length + (telegram :: telegrams).length - n =
          (buffer ++ [telegram]).length + telegrams.length - n := by
        simp only [List.length_cons, length]
        omega
      rw [appended, if_neg full, ih _ (by rw [length]; omega), dropped, List.append_assoc]
      rfl

/-- A buffer that was emptied shows it, until it is full of newer telegrams. -/
theorem emptied_iff {n : ℕ} (positive : 1 ≤ n) (bounded : buffer.length ≤ n) (telegrams : List StoredTelegram) :
    telegrams.foldl (appended n) [] = telegrams.foldl (appended n) buffer ↔ buffer = [] ∨ n ≤ telegrams.length := by
  have emptied := foldl_appended positive telegrams [] (Nat.zero_le n)
  rw [List.nil_append, List.length_nil, Nat.zero_add] at emptied
  rw [foldl_appended positive telegrams buffer bounded, emptied]
  constructor
  · intro same
    have lengths := congrArg List.length same
    rw [List.length_drop, List.length_drop, List.length_append] at lengths
    rcases Nat.eq_zero_or_pos buffer.length with none_ | some_
    · exact .inl (List.length_eq_zero_iff.mp none_)
    · right
      omega
  · rintro (rfl | many)
    · rw [List.nil_append, List.length_nil, Nat.zero_add]
    · have more : buffer.length + telegrams.length - n = buffer.length + (telegrams.length - n) := by omega
      rw [more, ← List.drop_drop, List.drop_left]

/-! ## One call -/

/-- How far a `clear` is. -/
def Clearing (db : Db) (s : CallState) : Waits → Prop
  | .begin | .deleteTelegrams | .raised => s.db = db
  | .deleteLastGa => s.db = db ∧ s.working.telegrams = []
  | .commitDelete => s.db = db ∧ s.working.telegrams = [] ∧ s.working.lastGa = []
  | .returned => s.db.telegrams = [] ∧ s.db.lastGa = []
  | _ => False

/-- How far an eviction is. -/
def EvictingOlder (store : Maintained) (cutoff : DateTime) (db : Db) (s : CallState) : Waits → Prop
  | .begin => s.succeeded = 0 ∧ s.db = db ∧ s.working = db
  | .deleteTelegrams => s.succeeded = 1 ∧ s.db = db ∧ s.working = db
  | .deleteLastGa => False
  | .commitDelete => s.succeeded = 2 ∧ s.db = db ∧ s.working = evictOlderThan db (cutoff.toMicros store.cfg.tzdb)
  | .raised => s.succeeded < 3 ∧ s.db = db ∨
      3 ≤ s.succeeded ∧ s.db = evictOlderThan db (cutoff.toMicros store.cfg.tzdb)
  | _ => 3 ≤ s.succeeded ∧ s.db = evictOlderThan db (cutoff.toMicros store.cfg.tzdb)

def CallProgress (store : Maintained) (buffer : List StoredTelegram) (db : Db) (s : CallState) : MaintenanceCall → Prop
  | .clear => Clearing db s s.waits ∧ s.buffer = s.stored.foldl (appended store.cfg.maxBufferSize) []
  | .evictOlderThan cutoff => EvictingOlder store cutoff db s s.waits ∧
      let arrived := s.stored.foldl (appended store.cfg.maxBufferSize) buffer
      if s.waits = .returned then
        s.buffer = arrived.filter (DateTime.lt? store.cfg.tzdb ·.timestamp cutoff == some false) ∧
          ∀ t ∈ arrived, DateTime.lt? store.cfg.tzdb t.timestamp cutoff ≠ none
      else s.buffer = arrived

theorem progress_start (store : Maintained) (call : MaintenanceCall) (buffer : List StoredTelegram) (db : Db) :
    CallProgress store buffer db (store.start call buffer db) call := by
  cases call with
  | clear =>
    unfold Maintained.start
    cases store.readOnly <;> exact ⟨rfl, rfl⟩
  | evictOlderThan cutoff =>
    unfold Maintained.start
    cases store.readOnly with
    | true => exact ⟨.inl ⟨Nat.zero_lt_succ 2, rfl⟩, rfl⟩
    | false => exact ⟨⟨rfl, rfl, rfl⟩, rfl⟩

theorem pruneBuffer_progress {cutoff : DateTime} {n : ℕ} (late : 3 ≤ n)
    (evicted : s.db = evictOlderThan db (cutoff.toMicros store.cfg.tzdb))
    (arrived : s.buffer = s.stored.foldl (appended store.cfg.maxBufferSize) buffer) :
    CallProgress store buffer db { store.pruneBuffer cutoff s with succeeded := n } (.evictOlderThan cutoff) := by
  unfold Maintained.pruneBuffer
  dsimp only
  split
  · exact ⟨.inr ⟨late, evicted⟩, arrived⟩
  · rename_i comparable
    refine ⟨⟨late, evicted⟩, ?_⟩
    rw [if_pos rfl, ← arrived]
    refine ⟨rfl, fun t mem missing => comparable ?_⟩
    rw [← missing]
    exact List.mem_map_of_mem mem

/-- A telegram is stored while the call waits. -/
theorem progress_store (progress : CallProgress store buffer db s call) (waiting : s.ended = false)
    (telegram : StoredTelegram) :
    CallProgress store buffer db { s with
      buffer := appended store.cfg.maxBufferSize s.buffer telegram
      stored := s.stored ++ [telegram] } call := by
  cases call with
  | clear =>
    obtain ⟨clearing, arrived⟩ := progress
    refine ⟨clearing, ?_⟩
    rw [List.foldl_append, ← arrived]
    rfl
  | evictOlderThan cutoff =>
    obtain ⟨evicting, arrived⟩ := progress
    have open_ : s.waits ≠ .returned := by
      intro returned
      simp [CallState.ended, returned] at waiting
    refine ⟨evicting, ?_⟩
    simp only [open_, if_false] at arrived ⊢
    rw [List.foldl_append, ← arrived]
    rfl

/-- A statement of the call succeeds. -/
theorem progress_succeed (progress : CallProgress store buffer db s call) (taken : store.succeed s call = some s') :
    CallProgress store buffer db { s' with succeeded := s'.succeeded + 1 } call := by
  cases call with
  | clear =>
    obtain ⟨clearing, arrived⟩ := progress
    simp only [Maintained.succeed] at taken
    cases at_ : s.waits <;> rw [at_] at clearing taken
    case begin =>
      cases taken
      exact ⟨clearing, arrived⟩
    case deleteTelegrams =>
      cases taken
      exact ⟨⟨clearing, rfl⟩, arrived⟩
    case deleteLastGa =>
      cases taken
      exact ⟨⟨clearing.1, clearing.2, rfl⟩, arrived⟩
    case commitDelete =>
      cases taken
      exact ⟨clearing.2, arrived⟩
    all_goals cases taken
  | evictOlderThan cutoff =>
    obtain ⟨evicting, arrived⟩ := progress
    simp only [Maintained.succeed] at taken
    cases at_ : s.waits <;> rw [at_] at evicting arrived taken
    case begin =>
      cases taken
      obtain ⟨count, same, working⟩ := evicting
      exact ⟨⟨congrArg (· + 1) count, same, working⟩, arrived⟩
    case deleteTelegrams =>
      cases taken
      obtain ⟨count, same, working⟩ := evicting
      exact ⟨⟨congrArg (· + 1) count, same, congrArg (evictOlderThan · _) working⟩, arrived⟩
    case commitDelete =>
      cases taken
      obtain ⟨count, _, working⟩ := evicting
      exact ⟨⟨(congrArg (· + 1) count).ge, working⟩, arrived⟩
    case beginStatistics | analyze | connect =>
      cases taken
      exact ⟨⟨Nat.le_succ_of_le evicting.1, evicting.2⟩, arrived⟩
    case readStatistics =>
      cases taken
      dsimp only
      split <;> exact ⟨⟨Nat.le_succ_of_le evicting.1, evicting.2⟩, arrived⟩
    case commitStatistics =>
      dsimp only at taken
      split at taken
      · cases taken
        exact ⟨⟨Nat.le_succ_of_le evicting.1, evicting.2⟩, arrived⟩
      · cases taken
        have count : (store.pruneBuffer cutoff s).succeeded = s.succeeded := by
          unfold Maintained.pruneBuffer
          dsimp only
          split <;> rfl
        rw [count]
        exact pruneBuffer_progress (Nat.le_succ_of_le evicting.1) evicting.2 arrived
    case checkpoint =>
      cases taken
      have count : (store.pruneBuffer cutoff s).succeeded = s.succeeded := by
        unfold Maintained.pruneBuffer
        dsimp only
        split <;> rfl
      rw [count]
      exact pruneBuffer_progress (Nat.le_succ_of_le evicting.1) evicting.2 arrived
    all_goals cases taken

/-- A statement of the call fails. -/
theorem progress_fail (progress : CallProgress store buffer db s call) (waiting : s.ended = false) :
    CallProgress store buffer db { s with working := s.db, waits := .raised } call := by
  cases call with
  | clear =>
    obtain ⟨clearing, arrived⟩ := progress
    refine ⟨?_, arrived⟩
    cases at_ : s.waits <;> rw [at_] at clearing
    case begin | deleteTelegrams | raised => exact clearing
    case deleteLastGa | commitDelete => exact clearing.1
    case returned => simp [CallState.ended, at_] at waiting
    all_goals exact clearing.elim
  | evictOlderThan cutoff =>
    obtain ⟨evicting, arrived⟩ := progress
    have open_ : s.waits ≠ .returned := by
      intro returned
      simp [CallState.ended, returned] at waiting
    simp only [open_, if_false] at arrived
    refine ⟨?_, arrived⟩
    cases at_ : s.waits <;> rw [at_] at evicting
    case begin | deleteTelegrams | commitDelete =>
      have count := evicting.1
      exact .inl ⟨show s.succeeded < 3 by omega, evicting.2.1⟩
    case deleteLastGa => exact evicting.elim
    case raised => exact evicting
    case returned => exact absurd at_ open_
    all_goals exact .inr evicting

theorem progress_step {event : CallEvent} (progress : CallProgress store buffer db s call)
    (taken : store.step call s event = some s') : CallProgress store buffer db s' call := by
  cases event with
  | store telegram =>
    obtain ⟨waiting, taken⟩ := Option.ite_none_left_eq_some.mp taken
    cases taken
    exact progress_store progress (Bool.eq_false_iff.mpr waiting) telegram
  | succeed =>
    obtain ⟨next, succeeded, rfl⟩ := Option.map_eq_some_iff.mp taken
    exact progress_succeed progress succeeded
  | fail =>
    obtain ⟨waiting, taken⟩ := Option.ite_none_left_eq_some.mp taken
    cases taken
    exact progress_fail progress (Bool.eq_false_iff.mpr waiting)

theorem run_progress {events : List CallEvent}
    (ran : EventMachine.run (store.step call) (store.start call buffer db) events = some s) :
    CallProgress store buffer db s call :=
  run_keeps (I := fun now => CallProgress store buffer db now call)
    (fun _ _ _ progress taken => progress_step progress taken)
    (progress_start store call buffer db) ran

theorem evictOlderThan_telegrams (db : Db) {cutoff : ℤ} :
    (evictOlderThan db cutoff).telegrams = db.telegrams ↔ ∀ row ∈ db.telegrams, cutoff ≤ row.timestamp := by
  rw [evictOlderThan, List.filter_eq_self]
  simp only [decide_eq_true_eq]

/-- **A failed `clear` or eviction** leaves the buffer and the tables as they
were exactly if it is harmless. -/
theorem failed_call_iff (bounded : buffer.length ≤ store.cfg.maxBufferSize) {events : List CallEvent}
    (ran : EventMachine.run (store.step call) (store.start call buffer db) events = some s)
    (raised : s.waits = .raised) :
    Restored store buffer db s ↔ Harmless store buffer db s call := by
  have progress := run_progress ran
  cases call with
  | clear =>
    obtain ⟨clearing, arrived⟩ := progress
    rw [raised] at clearing
    have same : s.db = db := clearing
    have shown := emptied_iff store.cfg.maxBufferSize_pos bounded s.stored
    rw [← arrived] at shown
    rw [Harmless, ← shown]
    exact ⟨Restored.buffer, fun buffered => ⟨same ▸ rfl, same ▸ rfl, buffered⟩⟩
  | evictOlderThan cutoff =>
    obtain ⟨evicting, arrived⟩ := progress
    rw [raised] at evicting arrived
    have buffered : s.buffer = s.stored.foldl (appended store.cfg.maxBufferSize) buffer := arrived
    rcases evicting with ⟨early, same⟩ | ⟨late, evicted⟩
    · exact iff_of_true ⟨same ▸ rfl, same ▸ rfl, buffered⟩ (.inl early)
    · rw [Harmless, ← evictOlderThan_telegrams db, ← evicted]
      constructor
      · exact fun restored => .inr restored.telegrams
      · rintro (early | unchanged)
        · omega
        · exact ⟨unchanged, by rw [evicted]; rfl, buffered⟩

/-- **One that returns** has deleted what it is to delete, of the tables and of
the buffer. -/
theorem returned_call {events : List CallEvent}
    (ran : EventMachine.run (store.step call) (store.start call buffer db) events = some s)
    (returned : s.waits = .returned) :
    match call with
    | .clear => s.db.telegrams = [] ∧ s.db.lastGa = [] ∧ s.buffer = s.stored.foldl (appended store.cfg.maxBufferSize) []
    | .evictOlderThan cutoff => s.db = evictOlderThan db (cutoff.toMicros store.cfg.tzdb) ∧
        s.buffer = (s.stored.foldl (appended store.cfg.maxBufferSize) buffer).filter
          (DateTime.lt? store.cfg.tzdb ·.timestamp cutoff == some false) := by
  have progress := run_progress ran
  cases call with
  | clear =>
    obtain ⟨clearing, arrived⟩ := progress
    rw [returned] at clearing
    exact ⟨clearing.1, clearing.2, arrived⟩
  | evictOlderThan cutoff =>
    obtain ⟨evicting, arrived⟩ := progress
    rw [returned] at evicting
    rw [if_pos returned] at arrived
    exact ⟨evicting.2, arrived.1⟩

/-! ## Failures -/

def sampleMaintained : Maintained where
  cfg := ⟨.sqlite, 10000, by decide, Sql.sampleEngine.tzdb⟩
  readOnly := false
  isMemory := false
  statisticsStale _ := false

/-- Without a time zone. -/
def naiveCutoff : DateTime := { wall := 10800000000, tzinfo := none }

theorem delete_fails :
    ∃ s, EventMachine.run (sampleMaintained.step (.evictOlderThan (.ofMicros 10800000000)))
        (sampleMaintained.start (.evictOlderThan (.ofMicros 10800000000)) [Sql.sampleTelegram] Sqlite.minuteBefore)
        [.succeed, .store Sql.sampleTelegram, .fail] = some s ∧
      Restored sampleMaintained [Sql.sampleTelegram] Sqlite.minuteBefore s := by
  obtain ⟨s, ran, raised, succeeded⟩ :
    ∃ s, EventMachine.run (sampleMaintained.step (.evictOlderThan (.ofMicros 10800000000)))
        (sampleMaintained.start (.evictOlderThan (.ofMicros 10800000000)) [Sql.sampleTelegram] Sqlite.minuteBefore)
        [.succeed, .store Sql.sampleTelegram, .fail] = some s ∧ s.waits = .raised ∧ s.succeeded = 1 :=
          ⟨_, rfl, rfl, rfl⟩
  have bounded : [Sql.sampleTelegram].length ≤ sampleMaintained.cfg.maxBufferSize := by decide
  have first : s.succeeded < 3 := by omega
  exact ⟨s, ran, (failed_call_iff bounded ran raised).mpr (.inl first)⟩

/-- A `clear` that cannot begin its transaction has emptied the buffer; a
naive cutoff is compared with the buffer when the rows are gone, and so they
are when the checkpoint fails. -/
theorem failures_lose_telegrams :
    (∃ s, EventMachine.run (sampleMaintained.step .clear)
        (sampleMaintained.start .clear [Sql.sampleTelegram] Sqlite.minuteBefore) [.fail] =
        some s ∧ s.waits = .raised ∧ s.buffer = [] ∧
          ¬ Restored sampleMaintained [Sql.sampleTelegram] Sqlite.minuteBefore s) ∧
    (∃ s, EventMachine.run (sampleMaintained.step (.evictOlderThan naiveCutoff))
        (sampleMaintained.start (.evictOlderThan naiveCutoff) [Sql.sampleTelegram] Sqlite.minuteBefore)
        (List.replicate 8 .succeed) = some s ∧ s.waits = .raised ∧ s.db.telegrams = [] ∧
        ¬ Restored sampleMaintained [Sql.sampleTelegram] Sqlite.minuteBefore s) ∧
    ∃ s, EventMachine.run (sampleMaintained.step (.evictOlderThan (.ofMicros 10800000000)))
        (sampleMaintained.start (.evictOlderThan (.ofMicros 10800000000)) [Sql.sampleTelegram] Sqlite.minuteBefore)
        (List.replicate 7 .succeed ++ [.fail]) = some s ∧ s.waits = .raised ∧ s.db.telegrams = [] ∧
        ¬ Restored sampleMaintained [Sql.sampleTelegram] Sqlite.minuteBefore s := by
  refine ⟨⟨_, rfl, rfl, rfl, fun restored => ?_⟩, ⟨_, rfl, rfl, rfl, fun restored => ?_⟩, _, rfl, rfl, rfl,
    fun restored => ?_⟩
  · cases restored.buffer
  · cases restored.telegrams
  · cases restored.telegrams

end KnxTelegramStore.Buffered
