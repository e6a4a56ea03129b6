import KnxTelegramStore.Buffered.Maintenance
import KnxTelegramStore.Sqlite.BatchInsert
import KnxTelegramStore.Sqlite.StartupProbe

/-!
`initialize` of a `BufferedSqliteStore` while telegrams are handed to `store()`
and `store_sync()`: the passes of `SqliteStore.initialize` one after the other,
and the buffer beside them. `_vacuum_when_room` calls `self.optimize()`, which
is the mixin's here and flushes before it compacts. `telegrams_kept_intact` says
in which starts the buffer is left alone.
-/
namespace KnxTelegramStore.Buffered
open EventMachine
open Sql (LookupCache)
open Sqlite (Host Database Pass)

/-- What `initialize` goes through. -/
inductive OpeningStep where
  | pass (pass : Pass)
  /-- `LookupCache.warm` -/
  | warm

/-- A store that is being opened. -/
structure Opened where
  host : Host
  cfg : Config
  readOnly : Bool

/-- The steps of `initialize`, in their order. -/
def Opened.steps (store : Opened) : List OpeningStep :=
  if store.readOnly then [.warm]
  else [.pass .upgradeSchema, .pass .convertTimestampsToIntegers, .pass .ensureIndexes, .pass .collectMissingStatistics,
    .pass .classifyTimestampConvention, .pass .vacuumWhenRoom, .pass .convertLegacy, .warm, .pass .reconcile]

/-- The last two fields record history: the telegrams handed in, and the passes
that have run. -/
structure OpeningState where
  db : Database
  cache : LookupCache := fun _ => none
  buffer : List StoredTelegram := []
  remaining : List OpeningStep
  handed : List StoredTelegram := []
  passed : List Pass := []

/-- The telegrams are aware, so that comparing two of a batch does not raise. -/
inductive OpeningEvent where
  | store (telegram : StoredTelegram) (aware : telegram.timestamp.Aware)
  | proceed

/-- The store as it is constructed, on an existing file. -/
def Opened.constructed (store : Opened) (db : Database) : OpeningState where
  db := { db with converted := false }
  remaining := store.steps

/-- `flush()`, when it writes what it finds in the buffer. -/
def Opened.flush (store : Opened) (s : OpeningState) : Option OpeningState :=
  if s.buffer.isEmpty then some s
  else if store.readOnly then none
  else (s.db.storeMany store.host.real store.cfg.tzdb s.cache s.buffer).map fun written =>
    { s with db := written.1, cache := s.cache.update written.2, buffer := [] }

/-- `_vacuum_when_room` runs the VACUUM. -/
def compacts (host : Host) (db : Database) : Bool := (db.converted || db.vacuumPending) && host.vacuumFits

/-- `_vacuum_when_room`, with the `optimize` of the mixin. -/
def Opened.vacuumWhenRoom (store : Opened) (s : OpeningState) : Option OpeningState :=
  (if compacts store.host s.db then store.flush s else some s).map fun s =>
    { s with db := s.db.vacuumWhenRoom store.host }

/-- A pass of the start. -/
def Opened.pass (store : Opened) (s : OpeningState) : Pass → Option OpeningState
  | .vacuumWhenRoom => store.vacuumWhenRoom s
  | pass => (s.db.pass store.host pass).map fun db => { s with db }

def Opened.step (store : Opened) (s : OpeningState) : OpeningEvent → Option OpeningState
  | .store telegram _ =>
    if s.remaining.isEmpty then none
    else some { s with
      buffer := appended store.cfg.maxBufferSize s.buffer telegram
      handed := s.handed ++ [telegram] }
  | .proceed =>
    match s.remaining with
    | [] => none
    | .warm :: rest => some { s with cache := s.cache.warm s.db.file.lookup, remaining := rest }
    | .pass pass :: rest =>
      (store.pass s pass).map fun s => { s with remaining := rest, passed := s.passed ++ [pass] }

/-- The telegrams that were not dropped for capacity: the newest ones. -/
def OpeningState.kept (s : OpeningState) (maxBufferSize : ℕ) : List StoredTelegram :=
  s.handed.drop (s.handed.length - maxBufferSize)

/-- What `initialize` is to leave of the telegrams that are handed in
meanwhile. -/
structure KeptIntact (store : Opened) (db : Database) (s : OpeningState) : Prop where
  /-- the tables are what the passes make of the file alone -/
  untouched : EventMachine.run (Database.pass store.host) { db with converted := false } s.passed = some s.db
  buffered : s.buffer = s.kept store.cfg.maxBufferSize
  /-- a flush behind `initialize` adds one row for each of them -/
  flushed : s.remaining = [] → ∀ s', store.flush s = some s' → s'.buffer = [] ∧
    ∃ rows, s'.db.rows = s.db.rows ++ rows ∧
      List.Forall₂ (Sqlite.Row.StoredAs store.host.real store.cfg.tzdb s'.db.file.lookup) rows
        (s.kept store.cfg.maxBufferSize)

/-- A start that compacts the file does so with an empty buffer. -/
def Opened.Undisturbed (store : Opened) (s : OpeningState) : OpeningEvent → Prop
  | .store _ _ => True
  | .proceed => s.remaining.head? = some (.pass .vacuumWhenRoom) → compacts store.host s.db = true → s.buffer = []

variable {store : Opened} {db db' : Database} {s s' : OpeningState} {pass : Pass} {rest : List OpeningStep}
variable {events : List OpeningEvent}

/-! ## One step -/

/-- What holds of the file, the buffer and the cache as long as no flush has
had anything to write. -/
structure Opening (store : Opened) (db : Database) (s : OpeningState) : Prop where
  untouched : EventMachine.run (Database.pass store.host) { db with converted := false } s.passed = some s.db
  arrived : s.buffer = s.handed.foldl (appended store.cfg.maxBufferSize) []
  truthful : s.cache.Truthful s.db.file.lookup

theorem opening_constructed (store : Opened) (db : Database) : Opening store db (store.constructed db) where
  untouched := rfl
  arrived := rfl
  truthful _ _ cached := by cases cached

theorem Opening.buffered (opening : Opening store db s) : s.buffer = s.kept store.cfg.maxBufferSize := by
  have newest := foldl_appended store.cfg.maxBufferSize_pos s.handed [] (Nat.zero_le _)
  rw [List.nil_append, List.length_nil, Nat.zero_add] at newest
  exact opening.arrived.trans newest

theorem pass_of_ne (other : pass ≠ .vacuumWhenRoom) :
    store.pass s pass = (s.db.pass store.host pass).map fun db => { s with db } := by
  cases pass
  case vacuumWhenRoom => exact absurd rfl other
  all_goals rfl

/-- A pass that flushes nothing is the pass of the file. -/
theorem pass_undisturbed (idle : pass = .vacuumWhenRoom → compacts store.host s.db = true → s.buffer = [])
    (taken : store.pass s pass = some s') :
    ∃ after, s.db.pass store.host pass = some after ∧ s' = { s with db := after } := by
  by_cases vacuum : pass = .vacuumWhenRoom
  · subst vacuum
    obtain ⟨flushed, reached, rfl⟩ := Option.map_eq_some_iff.mp taken
    have same : flushed = s := by
      split at reached
      · rename_i due
        rw [Opened.flush, idle rfl due, List.isEmpty_nil, if_pos rfl] at reached
        exact (Option.some.inj reached).symm
      · exact (Option.some.inj reached).symm
    subst same
    exact ⟨_, rfl, rfl⟩
  · rw [pass_of_ne vacuum] at taken
    obtain ⟨after, passed, rfl⟩ := Option.map_eq_some_iff.mp taken
    exact ⟨after, passed, rfl⟩

theorem Opening.passed (opening : Opening store db s) (done : s.db.pass store.host pass = some db') :
    Opening store db { s with db := db', remaining := rest, passed := s.passed ++ [pass] } where
  untouched := run_append.mpr ⟨s.db, opening.untouched, run_cons.mpr ⟨db', done, rfl⟩⟩
  arrived := opening.arrived
  truthful := opening.truthful.grows (Sqlite.lookedUp_pass (fun _ mem => mem) done)

/-- What a flush does, with a cache that is true to the lookups. -/
theorem flush_appends (truthful : s.cache.Truthful s.db.file.lookup) (flushed : store.flush s = some s') :
    s'.buffer = [] ∧ ∃ rows, s'.db.rows = s.db.rows ++ rows ∧
      List.Forall₂ (Sqlite.Row.StoredAs store.host.real store.cfg.tzdb s'.db.file.lookup) rows s.buffer := by
  unfold Opened.flush at flushed
  split at flushed
  · rename_i empty
    cases flushed
    have nothing := List.isEmpty_iff.mp empty
    refine ⟨nothing, [], (List.append_nil _).symm, ?_⟩
    rw [nothing]
    exact .nil
  · split at flushed
    · cases flushed
    · obtain ⟨written, stored, rfl⟩ := Option.map_eq_some_iff.mp flushed
      exact ⟨rfl, Sqlite.storeMany_appends truthful stored⟩

/-- One step of a start keeps what holds while nothing is flushed. -/
theorem Opening.step (opening : Opening store db s) {event : OpeningEvent} (quiet : store.Undisturbed s event)
    (taken : store.step s event = some s') : Opening store db s' := by
  cases event with
  | store telegram aware =>
    obtain ⟨_, same⟩ := Option.ite_none_left_eq_some.mp taken
    cases same
    refine ⟨opening.untouched, ?_, opening.truthful⟩
    show appended _ s.buffer telegram = _
    rw [List.foldl_append, ← opening.arrived]
    rfl
  | proceed =>
    rw [Opened.step] at taken
    split at taken
    · cases taken
    · cases taken
      exact ⟨opening.untouched, opening.arrived,
        opening.truthful.update fun _ _ found => Sql.StringLookup.idOf_eq_some.mp found⟩
    · rename_i pass rest next
      obtain ⟨after, reached, rfl⟩ := Option.map_eq_some_iff.mp taken
      have idle : pass = .vacuumWhenRoom → compacts store.host s.db = true → s.buffer = [] := by
        rintro rfl due
        apply quiet
        · rw [next, List.head?_cons]
        · exact due
      obtain ⟨db', done, rfl⟩ := pass_undisturbed idle reached
      exact opening.passed done

theorem Opening.keptIntact (opening : Opening store db s) : KeptIntact store db s where
  untouched := opening.untouched
  buffered := opening.buffered
  flushed := by
    intro _ s' flushed
    rw [← opening.buffered]
    exact flush_appends opening.truthful flushed

theorem rows_vacuumWhenRoom (host : Host) (db : Database) : (db.vacuumWhenRoom host).rows = db.rows := by
  unfold Database.vacuumWhenRoom
  split
  · split <;> rfl
  · rfl

/-- A flush within the compaction adds rows that no pass does. -/
theorem disturbed (untouched : EventMachine.run (Database.pass store.host)
    { db with converted := false } s.passed = some s.db)
    (next : s.remaining.head? = some (.pass .vacuumWhenRoom)) (due : compacts store.host s.db = true)
    (full : s.buffer ≠ []) (taken : store.step s .proceed = some s') :
    EventMachine.run (Database.pass store.host) { db with converted := false } s'.passed ≠ some s'.db := by
  obtain ⟨rest, remaining⟩ : ∃ rest, s.remaining = .pass .vacuumWhenRoom :: rest :=
    ⟨_, List.eq_cons_of_mem_head? next⟩
  simp only [Opened.step, remaining] at taken
  obtain ⟨vacuumed, passed, rfl⟩ := Option.map_eq_some_iff.mp taken
  obtain ⟨flushed, written, rfl⟩ := Option.map_eq_some_iff.mp passed
  have waiting : ¬ s.buffer.isEmpty = true := by
    intro empty
    exact full (List.isEmpty_iff.mp empty)
  rw [if_pos due, Opened.flush, if_neg waiting] at written
  obtain ⟨_, written⟩ := Option.ite_none_left_eq_some.mp written
  obtain ⟨stored, batch, rfl⟩ := Option.map_eq_some_iff.mp written
  intro same
  obtain ⟨middle, reached, last⟩ := run_append.mp same
  cases untouched.symm.trans reached
  obtain ⟨alone, done, last⟩ := run_cons.mp last
  cases done
  have lengths := congrArg (fun now : Database => now.rows.length) (Option.some.inj last)
  simp only [rows_vacuumWhenRoom, Sqlite.length_storeMany batch] at lengths
  apply full
  apply List.length_eq_zero_iff.mp
  omega

theorem run_opening (quiet : Along store.step store.Undisturbed (store.constructed db) events)
    (ran : EventMachine.run store.step (store.constructed db) events = some s) : Opening store db s :=
  run_invariant (fun _ _ _ opening quiet taken => opening.step quiet taken) (opening_constructed store db) quiet ran

/-- **What `initialize` leaves of the telegrams handed in before it returns.**
In every state it goes through they are in the buffer and in no table, and a
flush that follows stores each of them once with its own instant, as long as it
compacts the file with an empty buffer only. -/
theorem telegrams_kept_intact (ran : EventMachine.run store.step (store.constructed db) events = some s) :
    (∀ before rest reached, events = before ++ rest → EventMachine.run store.step
    (store.constructed db) before = some reached →
      KeptIntact store db reached) ↔ Along store.step store.Undisturbed (store.constructed db) events := by
  constructor
  · intro intact
    refine along_iff.mpr fun before event rest middle split reached => ?_
    cases event with
    | store telegram aware => trivial
    | proceed =>
      intro next due
      by_contra full
      have here := intact before _ middle split reached
      rw [split] at ran
      obtain ⟨_, reached', onward⟩ := run_append.mp ran
      cases reached.symm.trans reached'
      obtain ⟨after, taken, _⟩ := run_cons.mp onward
      have there := intact (before ++ [.proceed]) rest after (by rw [split, List.append_assoc, List.singleton_append])
        (run_append.mpr ⟨middle, reached, run_cons.mpr ⟨after, taken, rfl⟩⟩)
      exact disturbed here.untouched next due full taken there.untouched
  · intro quiet before rest reached split ran'
    rw [split] at quiet
    exact (run_opening (along_append quiet ran').1 ran').keptIntact

/-- The pass among the steps of `initialize`. -/
def OpeningStep.pass? : OpeningStep → Option Pass
  | .pass pass => some pass
  | .warm => none

theorem flush_frame (flushed : store.flush s = some s') : s'.passed = s.passed ∧ s'.handed = s.handed := by
  unfold Opened.flush at flushed
  split at flushed
  · cases flushed
    exact ⟨rfl, rfl⟩
  · obtain ⟨_, flushed⟩ := Option.ite_none_left_eq_some.mp flushed
    obtain ⟨written, _, rfl⟩ := Option.map_eq_some_iff.mp flushed
    exact ⟨rfl, rfl⟩

theorem pass_frame (taken : store.pass s pass = some s') : s'.passed = s.passed ∧ s'.handed = s.handed := by
  by_cases vacuum : pass = .vacuumWhenRoom
  · subst vacuum
    obtain ⟨flushed, reached, rfl⟩ := Option.map_eq_some_iff.mp taken
    split at reached
    · exact (flush_frame reached :)
    · cases reached
      exact ⟨rfl, rfl⟩
  · rw [pass_of_ne vacuum] at taken
    obtain ⟨after, _, rfl⟩ := Option.map_eq_some_iff.mp taken
    exact ⟨rfl, rfl⟩

/-- What an event hands in. -/
def OpeningEvent.telegrams : OpeningEvent → List StoredTelegram
  | .store telegram _ => [telegram]
  | .proceed => []

theorem run_handed (ran : EventMachine.run store.step (store.constructed db) events = some s) :
    s.handed = events.flatMap OpeningEvent.telegrams := by
  have handed (now after : OpeningState) (event : OpeningEvent) (taken : store.step now event = some after) :
      after.handed = now.handed ++ event.telegrams := by
    cases event with
    | store telegram aware =>
      obtain ⟨_, same⟩ := Option.ite_none_left_eq_some.mp taken
      cases same
      rfl
    | proceed =>
      rw [OpeningEvent.telegrams, List.append_nil]
      rw [Opened.step] at taken
      split at taken
      · cases taken
      · cases taken
        rfl
      · obtain ⟨passing, passed, rfl⟩ := Option.map_eq_some_iff.mp taken
        exact (pass_frame passed).2
  have grown : s.handed = events.foldl (fun handed event => handed ++ event.telegrams) [] :=
    run_view (v := OpeningState.handed) (fun now event after taken => handed now after event taken) ran
  rw [grown, List.foldl_append_eq_append]
  exact List.nil_append _

/-- The passes come one after the other, and none of them twice. -/
theorem run_passed (writing : store.readOnly = false)
    (ran : EventMachine.run store.step (store.constructed db) events = some s) :
    s.passed ++ s.remaining.filterMap OpeningStep.pass? = Sqlite.passes := by
  refine run_keeps (I := fun now : OpeningState =>
    now.passed ++ now.remaining.filterMap OpeningStep.pass? = Sqlite.passes)
      (fun now event after order taken => ?_) ?_ ran
  · cases event with
    | store telegram aware =>
      obtain ⟨_, same⟩ := Option.ite_none_left_eq_some.mp taken
      cases same
      exact order
    | proceed =>
      rw [Opened.step] at taken
      split at taken
      · cases taken
      · rename_i rest next
        cases taken
        rwa [next] at order
      · rename_i pass rest next
        obtain ⟨passing, passed, rfl⟩ := Option.map_eq_some_iff.mp taken
        rw [next, ← (pass_frame passed).1] at order
        rw [List.append_assoc]
        exact order
  · simp only [Opened.constructed, Opened.steps, writing, Bool.false_eq_true, if_false]
    rfl

/-- Once it has returned, the file is what the backend's own `initialize` makes
of it. -/
theorem initialized_alone (writing : store.readOnly = false)
    (ran : EventMachine.run store.step (store.constructed db) events = some s)
    (quiet : Along store.step store.Undisturbed (store.constructed db) events) (returned : s.remaining = []) :
    db.initializeStore store.host = some s.db := by
  have untouched := (run_opening quiet ran).untouched
  have passed := run_passed writing ran
  rw [returned, List.filterMap_nil, List.append_nil] at passed
  rwa [passed] at untouched

/-- A writing store with the zone that wrote its file. -/
def zonedStore (vacuumFits : Bool) : Opened where
  host := { Sqlite.roomyHost with legacyTimestampTimezone := some Sqlite.ahead, vacuumFits }
  cfg := ⟨.sqlite, 2, Nat.zero_lt_two, fun _ _ _ => 0⟩
  readOnly := false

/-- A legacy file with one telegram, converted to integers but not compacted
since. -/
def pendingDatabase : Database where
  file := {
    telegrams := some {
      columns := Sqlite.keepColumns
      indexes := Sqlite.modelIndexes
      rows := [{
        content := {
          rowid := 1
          timestamp := .integer 10800000000
          data := ⟨.null, .null⟩
          dptMain := none
          dptSub := none
          valueNumeric := none
          rawData := none
          dataSecure := none }
        strings := fun _ => none
        ids := fun category => some (Sqlite.categories.idxOf category + 1) }] }
    lookup := ({} : Sql.StringLookup).insertAll .sqlite (Sql.pairsOf Sql.sampleTelegram)
    nullsRecovered := true
    dataUnwrapped := true }
  lastGa := some []
  statistics := true
  timestampsInteger := true
  vacuumPending := true
  timestampsUtc := false
  utcFrom := none
  legacyMaxRowid := none
  reconciled := false

/-- One telegram is handed in before `initialize`. -/
def storeThenInitialize : List OpeningEvent := .store Sql.sampleTelegram rfl :: List.replicate 9 .proceed

def OpeningState.instants (s : OpeningState) : List ℤ := s.db.rows.map fun row => row.content.timestamp.instant

/-- Without room for the VACUUM the telegram waits in the buffer. -/
theorem kept_without_room : ∃ s s', EventMachine.run (zonedStore false).step
      ((zonedStore false).constructed pendingDatabase) storeThenInitialize = some s ∧
    s.remaining = [] ∧ KeptIntact (zonedStore false) pendingDatabase s ∧
    (zonedStore false).flush s = some s' ∧ s.instants = [3600000000] ∧ s'.instants = [3600000000, 0] := by
  have computed : (EventMachine.run (zonedStore false).step ((zonedStore false).constructed pendingDatabase)
      storeThenInitialize).bind (fun s => ((zonedStore false).flush s).map fun s' =>
        (s.remaining.length, s.instants, s'.instants)) = some (0, [3600000000], [3600000000, 0]) := by decide +kernel
  obtain ⟨s, ran, flushed⟩ := Option.bind_eq_some_iff.mp computed
  obtain ⟨s', flushed, same⟩ := Option.map_eq_some_iff.mp flushed
  simp only [Prod.mk.injEq, List.length_eq_zero_iff] at same
  have quiet : Along (zonedStore false).step (zonedStore false).Undisturbed
      ((zonedStore false).constructed pendingDatabase) storeThenInitialize := by
    refine along_of_mem fun event _ now => ?_
    cases event with
    | store telegram aware => trivial
    | proceed =>
      intro _ due
      rw [compacts, Bool.and_eq_true] at due
      cases due.2
  have intact := (telegrams_kept_intact ran).mpr quiet storeThenInitialize [] s (List.append_nil _).symm ran
  exact ⟨s, s', ran, same.1, intact, flushed, same.2.1, same.2.2⟩

/-- With room for it, the telegram is written before the legacy rows are
converted, and shifted with them by two hours. -/
theorem shifted_by_initialize : ∃ s, EventMachine.run (zonedStore true).step
      ((zonedStore true).constructed pendingDatabase) storeThenInitialize = some s ∧
    s.remaining = [] ∧ s.buffer = [] ∧ s.kept 2 = [Sql.sampleTelegram] ∧ s.instants = [3600000000, -7200000000] ∧
    Sql.sampleTelegram.timestamp.toMicros (zonedStore true).cfg.tzdb = 0 ∧
    ¬ KeptIntact (zonedStore true) pendingDatabase s := by
  have computed : (EventMachine.run (zonedStore true).step ((zonedStore true).constructed pendingDatabase)
      storeThenInitialize).map (fun s => (s.remaining.length, s.buffer.length, s.instants)) =
        some (0, 0, [3600000000, -7200000000]) := by decide +kernel
  obtain ⟨s, ran, same⟩ := Option.map_eq_some_iff.mp computed
  simp only [Prod.mk.injEq, List.length_eq_zero_iff] at same
  have kept : s.kept 2 = [Sql.sampleTelegram] := by
    rw [OpeningState.kept, run_handed ran]
    rfl
  refine ⟨s, ran, same.1, same.2.1, kept, same.2.2, rfl, fun intact => ?_⟩
  have buffered : s.buffer = s.kept 2 := intact.buffered
  rw [same.2.1, kept] at buffered
  cases buffered

end KnxTelegramStore.Buffered
