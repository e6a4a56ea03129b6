import KnxTelegramStore.Query.Stats
import KnxTelegramStore.Sql.LastValues

/-!
What a SQL store keeps over its whole life (`base_sql.py`): transactions that
commit their batches in any order, evictions, clears, restarts and reconciles.
A `Log` says what all of them are for: the telegrams there still are, in
storage order, and those whose newest are the last values. The tables refine
it, so that counts, statistics and dry runs are about the very telegrams that
a query returns, while no eviction takes a last value away.
-/
namespace KnxTelegramStore
open Newest

/-! ## The log -/

/-- The telegrams a store has, and those it has had since it was cleared. -/
structure Log where
  kept : List StoredTelegram := []
  seen : List StoredTelegram := []
  kept_seen : kept.Sublist seen := by simp

/-- What a cutoff leaves and what it takes. -/
theorem length_older {α : Type*} (stamp : α → ℤ) (xs : List α) (cutoff : ℤ) :
    (xs.filter fun x => cutoff ≤ stamp x).length + (xs.countP fun x => stamp x < cutoff) = xs.length := by
  rw [← List.countP_eq_length_filter, List.length_eq_countP_add_countP fun x => decide (cutoff ≤ stamp x)]
  simp only [decide_eq_true_eq, not_le]

namespace Log

def store (log : Log) (telegrams : List StoredTelegram) : Log where
  kept := log.kept ++ telegrams
  seen := log.seen ++ telegrams
  kept_seen := log.kept_seen.append (List.Sublist.refl telegrams)

/-- What is older than the cutoff is no longer kept, but has been seen. -/
def evict (tzdb : TzDb) (log : Log) (cutoff : ℤ) : Log where
  kept := log.kept.filter fun t => cutoff ≤ t.instant tzdb
  seen := log.seen
  kept_seen := List.filter_sublist.trans log.kept_seen

/-- How many telegrams are older than the cutoff. -/
def expired (tzdb : TzDb) (log : Log) (cutoff : ℤ) : ℕ := log.kept.countP fun t => t.instant tzdb < cutoff

def oldest (tzdb : TzDb) (log : Log) : Option ℤ := (log.kept.map (StoredTelegram.instant tzdb)).min?

def newest (tzdb : TzDb) (log : Log) : Option ℤ := (log.kept.map (StoredTelegram.instant tzdb)).max?

end Log

namespace Sql

/-! ## Evictions and statistics -/

/-- What the constructor is called with. -/
structure Settings where
  readOnly : Bool := false
  retentionDays : Option ℤ := none

theorem Db.remaining_unique (db : Db) (cutoff : ℤ) :
    ((db.telegrams.filter fun row => cutoff ≤ row.timestamp).map TelegramRow.rowid).Nodup :=
  db.rowids_unique.sublist (List.filter_sublist.map _)

/-- `DELETE FROM telegrams WHERE timestamp < cutoff`. -/
def Db.deleteBefore (db : Db) (cutoff : ℤ) : Db :=
  { db with
    telegrams := db.telegrams.filter fun row => cutoff ≤ row.timestamp
    rowids_unique := db.remaining_unique cutoff }

/-- `BaseSQLStore.evict_older_than`: what becomes of the tables, and what it
returns; `none` is an exception. -/
def evictOlderThan (engine : Engine) (settings : Settings) (db : Db) (cutoff : DateTime) (dryRun : Bool) :
    Option (Db × ℕ) :=
  if settings.readOnly then none
  else do
    let cutoff ← bindTimestamp engine.backend engine.tzdb cutoff
    let expired := db.telegrams.countP fun row => row.timestamp < cutoff
    return (if dryRun then db else db.deleteBefore cutoff, expired)

/-- `BaseSQLStore.evict_expired`, at an instant. -/
def evictExpired (engine : Engine) (settings : Settings) (db : Db) (now : ℤ) (dryRun : Bool) : Option (Db × ℕ) :=
  match settings.retentionDays with
  | none => some (db, 0)
  | some days => do
    let cutoff ← (DateTime.ofMicros now).add? (-(days * 86400000000))
    evictOlderThan engine settings db cutoff dryRun

/-- `engine.dialect.name`. -/
def dialectName : Backend → String
  | .sqlite => "sqlite"
  | .postgres => "postgresql"

/-- A bound of the timestamps as the column's type reads it. -/
def readBound : Option ℤ → Option (Option DateTime)
  | none => some none
  | some bound => (DateTime.microsToDatetime bound).map some

/-- `BaseSQLStore.get_stats`, with what `_size_bytes` finds. -/
def getStats (engine : Engine) (settings : Settings) (db : Db) (sizeBytes : Option ℕ) : Option StoreStats := do
  let oldestTimestamp ← readBound (db.telegrams.map fun row => row.timestamp).min?
  let newestTimestamp ← readBound (db.telegrams.map fun row => row.timestamp).max?
  return {
    telegramCount := db.telegrams.length
    oldestTimestamp, newestTimestamp, sizeBytes
    backend := dialectName engine.backend
    retentionDays := settings.retentionDays }

variable {engine : Engine} {settings : Settings}

/-- An eviction that does not raise takes the rows before its cutoff. -/
theorem evictOlderThan_some {db db' : Db} {cutoff : DateTime} {dryRun : Bool} {n : ℕ}
    (evicted : evictOlderThan engine settings db cutoff dryRun = some (db', n)) :
    (n = db.telegrams.countP fun row => row.timestamp < cutoff.toMicros engine.tzdb) ∧
      db' = if dryRun then db else db.deleteBefore (cutoff.toMicros engine.tzdb) := by
  unfold evictOlderThan at evicted
  split at evicted
  · cases evicted
  · obtain ⟨micros, bound, same⟩ := Option.bind_eq_some_iff.mp evicted
    cases bindTimestamp_eq bound
    cases same
    exact ⟨rfl, rfl⟩

theorem evictExpired_some {db db' : Db} {now : ℤ} {dryRun : Bool} {n : ℕ}
    (evicted : evictExpired engine settings db now dryRun = some (db', n)) :
    (settings.retentionDays = none ∧ n = 0 ∧ db' = db) ∨
      ∃ days, settings.retentionDays = some days ∧
        (n = db.telegrams.countP fun row => row.timestamp < now - days * 86400000000) ∧
        db' = if dryRun then db else db.deleteBefore (now - days * 86400000000) := by
  unfold evictExpired at evicted
  split at evicted
  · rename_i unlimited
    cases evicted
    exact .inl ⟨unlimited, rfl, rfl⟩
  · rename_i days limited
    obtain ⟨cutoff, moved, evicted⟩ := Option.bind_eq_some_iff.mp evicted
    obtain ⟨tzinfo, wall⟩ := DateTime.add?_tzinfo moved
    have offset : DateTime.utcoffset engine.tzdb (.ofMicros now) = cutoff.utcoffset engine.tzdb :=
      DateTime.utcoffset_of_fixed rfl tzinfo.symm
    have micros := DateTime.add?_instant moved offset.symm
    rw [DateTime.toMicros_ofMicros, ← sub_eq_add_neg] at micros
    obtain ⟨counted, left⟩ := evictOlderThan_some evicted
    rw [micros] at counted left
    exact .inr ⟨days, limited, counted, left⟩

/-! ## The life of a store -/

/-- A store with the log of what it has been through. -/
structure Life where
  keeper : Keeper := {}
  log : Log := {}

inductive LifeEvent where
  | keeper (event : KeeperEvent)
  | evictOlderThan (cutoff : DateTime)
  | evictExpired (now : ℤ)

/-- Its tables. -/
abbrev Life.db (l : Life) : Db := l.keeper.store.db

/-- A commit stores its batch, and a clear forgets everything. -/
def Life.record (l : Life) : KeeperEvent → Log
  | .store (.commit task _) =>
    match l.keeper.store.tasks task with
    | some (.open_ telegrams _) => l.log.store telegrams
    | _ => l.log
  | .store .clear => {}
  | _ => l.log

/-- After an eviction. -/
def Life.left (l : Life) (db : Db) (log : Log) : Life :=
  { keeper := { l.keeper with store := { l.keeper.store with db, stored := log.kept } }, log }

def Life.step (engine : Engine) (settings : Settings) (l : Life) : LifeEvent → Option Life
  | .keeper event => (l.keeper.step engine event).map fun keeper => { keeper, log := l.record event }
  | .evictOlderThan cutoff =>
    (evictOlderThan engine settings l.db cutoff false).map fun result =>
      l.left result.1 (l.log.evict engine.tzdb (cutoff.toMicros engine.tzdb))
  | .evictExpired now =>
    (evictExpired engine settings l.db now false).map fun result =>
      l.left result.1 (settings.retentionDays.elim l.log fun days =>
        l.log.evict engine.tzdb (now - days * 86400000000))

abbrev Life.run (engine : Engine) (settings : Settings) (events : List LifeEvent) : Option Life :=
  EventMachine.run (Life.step engine settings) {} events

/-! ## The summaries set aside -/

def Db.withoutSummaries (db : Db) : Db := { db with lastGa := [], destinations_unique := List.nodup_nil }

def Store.withoutSummaries (s : Store) : Store := { s with db := s.db.withoutSummaries }

/-- What a transaction does to the other tables has nothing to do with the
summaries. -/
theorem storeMany_withoutSummaries (ids : IdSource) (cache : LookupCache) (telegrams : List StoredTelegram) (db : Db) :
    (storeMany engine ids cache telegrams db.withoutSummaries).2.map
        (fun result => (result.1.withoutSummaries, result.2)) =
      (storeMany engine ids cache telegrams db).2.map fun result => (result.1.withoutSummaries, result.2) := by
  unfold storeMany Db.withoutSummaries
  dsimp only
  split
  · rfl
  · split
    · rfl
    · split
      · rfl
      · simp only [Option.map_map]
        rfl

/-- Nor has any other step: without the summaries, a store takes it as well. -/
theorem Store.step_withoutSummaries {s s' : Store} {event : StoreEvent} (taken : s.step engine event = some s') :
    ∃ s'', s.withoutSummaries.step engine event = some s'' ∧ s''.withoutSummaries = s'.withoutSummaries := by
  cases event with
  | commit task ids =>
    unfold Store.step at taken
    dsimp only at taken
    split at taken
    · rename_i telegrams cache opened
      split at taken
      · rename_i statements db lookupIds ran
        cases taken
        have same : (storeMany engine ids cache telegrams s.db.withoutSummaries).2.map _ = _ :=
          storeMany_withoutSummaries ids cache telegrams s.db
        rw [ran, Option.map_some] at same
        obtain ⟨⟨db', lookupIds'⟩, committed, equal⟩ := Option.map_eq_some_iff.mp same
        obtain ⟨tables, rfl⟩ := Prod.mk.inj equal
        refine ⟨{ s with
          db := db'
          tasks := Function.update s.tasks task (some (.committed lookupIds'))
          stored := s.stored ++ telegrams }, ?_, ?_⟩
        · unfold Store.step
          dsimp only [Store.withoutSummaries]
          rw [opened]
          dsimp only
          rw [← Prod.mk.eta (p := storeMany engine ids cache telegrams s.db.withoutSummaries), committed]
        · rw [Store.withoutSummaries, Store.withoutSummaries, tables]
      · cases taken
    · cases taken
  | begin task telegrams | rollback task | publish task =>
    unfold Store.step at taken ⊢
    dsimp only [Store.withoutSummaries] at taken ⊢
    split at taken
    · cases taken
      exact ⟨_, rfl, rfl⟩
    · cases taken
  | clear | warm | restart =>
    cases taken
    exact ⟨_, rfl, rfl⟩

/-! ## What is remembered -/

/-- Rows of all the telegrams seen: those that are still in the table are
among them, and the summaries are the newest of them all. -/
structure Remembers (engine : Engine) (db : Db) (seen : List StoredTelegram) (rows : List (Columns ℤ)) : Prop where
  written : List.Forall₂ (Stores engine db.lookup) rows seen
  present : db.telegrams.map TelegramRow.toColumns ⊆ rows
  summaries : ∀ row ∈ db.lastGa, ∃ t ∈ seen, Stores engine db.lookup row t
  newest : Steady engine.tzdb seen → db.lastGa = absorbAll Columns.destinationId Columns.timestamp [] rows

variable {db db' : Db} {seen : List StoredTelegram} {rows : List (Columns ℤ)}

theorem Remembers.deleteBefore (remembers : Remembers engine db seen rows) (cutoff : ℤ) :
    Remembers engine (db.deleteBefore cutoff) seen rows :=
  { remembers with present := fun _ mem => remembers.present ((List.filter_sublist.map _).subset mem) }

theorem Remembers.clear (db : Db) : Remembers engine db.clear [] [] where
  written := .nil
  present := List.Subset.refl []
  summaries _ mem := by cases mem
  newest _ := rfl

/-- A batch is seen once it has been committed. -/
theorem Remembers.storeMany {cache lookupIds : LookupCache} {ids : IdSource} {telegrams : List StoredTelegram}
    {statements : List Statement} (remembers : Remembers engine db seen rows) (truthful : cache.Truthful db.lookup)
    (ran : storeMany engine ids cache telegrams db = (statements, some (db', lookupIds))) :
    ∃ rows', Remembers engine db' (seen ++ telegrams) rows' := by
  have stored := storeMany_stored truthful ran
  obtain ⟨inserted, columns, written⟩ := stored.inserted
  refine ⟨rows ++ inserted, ?_, ?_, fun row mem => ?_, fun steady => ?_⟩
  · exact List.rel_append (remembers.written.imp fun _ _ stores => stores.grows stored.grows) written
  · rw [columns]
    refine List.append_subset.mpr ⟨fun row mem => ?_, List.subset_append_right _ _⟩
    exact List.mem_append_left _ (remembers.present mem)
  · rcases stored.upserted row mem with old | ⟨t, own, stores⟩
    · obtain ⟨t, held, stores⟩ := remembers.summaries row old
      exact ⟨t, List.mem_append_left _ held, stores.grows stored.grows⟩
    · exact ⟨t, List.mem_append_right _ own, stores⟩
  · have before := remembers.newest (steady.mono (List.subset_append_left _ _))
    obtain ⟨inserted', columns', _, absorbed⟩ :=
      storeMany_absorbs truthful (steady.mono (List.subset_append_right _ _)) ran
    have same : inserted' = inserted := List.append_cancel_left (columns'.symm.trans columns)
    rw [absorbed, before, same, absorbAll, absorbAll, absorbAll, List.foldl_append]

/-- A reconcile finds nothing to do, whatever has been evicted. -/
theorem Remembers.reconcile_eq (remembers : Remembers engine db seen rows) (steady : Steady engine.tzdb seen)
    (tieBreaker : TieBreaker) (reconciled : Bool) : db.reconcile tieBreaker reconciled = db := by
  have newest := mem_newest Columns.destinationId Columns.timestamp rows
  rw [← remembers.newest steady] at newest
  have kept : db.lastGa.filter (fun summary => !db.newerTelegram summary) = db.lastGa := by
    refine List.filter_eq_self.mpr fun summary mem => ?_
    rw [Bool.not_eq_true', Db.newerTelegram, List.any_eq_false]
    intro row own newer
    obtain ⟨same, late⟩ := of_decide_eq_true newer
    have latest := ((newest.1 summary).mp mem).le (remembers.present (List.mem_map_of_mem own)) same
    exact absurd late (not_lt.mpr latest)
  have known : ∀ row ∈ db.ranked tieBreaker, row.destinationId ∈ db.lastGa.map Columns.destinationId := by
    intro row mem
    exact List.mem_map.mpr (newest.2 row (remembers.present (mem_ranked mem)))
  unfold Db.reconcile
  split
  · rfl
  · simp only [kept, insertMissing_known known]

theorem Remembers.reconcile (remembers : Remembers engine db seen rows) (tieBreaker : TieBreaker) (reconciled : Bool) :
    Remembers engine (db.reconcile tieBreaker reconciled) seen rows := by
  obtain ⟨lookup, telegrams⟩ := reconcile_frame db tieBreaker reconciled
  refine ⟨?_, ?_, fun row mem => ?_, fun steady => ?_⟩
  · rw [lookup]
    exact remembers.written
  · rw [telegrams]
    exact remembers.present
  · rw [lookup]
    rcases mem_reconcile mem with old | own
    · exact remembers.summaries row old
    · exact forall₂_mem remembers.written.flip (remembers.present own)
  · rw [remembers.reconcile_eq steady]
    exact remembers.newest steady

/-! ## The refinement -/

/-- The tables refine the log. -/
structure Life.Refines (engine : Engine) (l : Life) : Prop where
  interned : Interned engine l.keeper.store.withoutSummaries
  kept : l.keeper.store.stored = l.log.kept
  remembers : ∃ rows, Remembers engine l.db l.log.seen rows

variable {l l' : Life}

theorem Interned.withoutSummaries {s : Store} (interned : Interned engine s) : Interned engine s.withoutSummaries where
  cache := interned.cache
  tasks := interned.tasks
  telegrams := interned.telegrams
  summaries _ mem := by cases mem

theorem Interned.deleteBefore {s : Store} (interned : Interned engine s) (cutoff : ℤ) :
    List.Forall₂ (Stores engine s.db.lookup) ((s.db.deleteBefore cutoff).telegrams.map TelegramRow.toColumns)
      (s.stored.filter fun t => cutoff ≤ t.instant engine.tzdb) := by
  have rows : (s.db.deleteBefore cutoff).telegrams.map TelegramRow.toColumns =
      (s.db.telegrams.map TelegramRow.toColumns).filter fun row => cutoff ≤ row.timestamp := by
    rw [List.filter_map]
    rfl
  rw [rows]
  refine List.rel_filter (fun row t stores => ?_) interned.telegrams
  show decide (cutoff ≤ row.timestamp) = true ↔ _
  rw [stores.timestamp]
  exact Iff.rfl

theorem reconcile_withoutSummaries (db : Db) (tieBreaker : TieBreaker) (reconciled : Bool) :
    (db.reconcile tieBreaker reconciled).withoutSummaries = db.withoutSummaries := by
  unfold Db.reconcile
  split <;> rfl

theorem Life.Refines.left (refines : l.Refines engine) (cutoff : ℤ) :
    Life.Refines engine (l.left (l.db.deleteBefore cutoff) (l.log.evict engine.tzdb cutoff)) := by
  obtain ⟨rows, remembers⟩ := refines.remembers
  refine ⟨⟨refines.interned.cache, refines.interned.tasks, ?_, fun _ mem => by cases mem⟩, rfl, rows,
    remembers.deleteBefore cutoff⟩
  show List.Forall₂ _ _ (l.log.kept.filter _)
  rw [← refines.kept]
  exact refines.interned.deleteBefore cutoff

theorem Life.Refines.keeper {event : KeeperEvent} {keeper : Keeper} (refines : l.Refines engine)
    (taken : l.keeper.step engine event = some keeper) : Life.Refines engine { keeper, log := l.record event } := by
  obtain ⟨rows, remembers⟩ := refines.remembers
  cases event with
  | reconcile tieBreaker =>
    cases taken
    refine ⟨?_, refines.kept, rows, remembers.reconcile tieBreaker _⟩
    have interned := refines.interned
    unfold Store.withoutSummaries at interned ⊢
    dsimp only
    rw [reconcile_withoutSummaries]
    exact interned
  | store event =>
    obtain ⟨s', stepped, rfl⟩ := Option.map_eq_some_iff.mp taken
    have interned : Interned engine s'.withoutSummaries := by
      obtain ⟨s'', took, same⟩ := Store.step_withoutSummaries stepped
      rw [← same]
      exact (refines.interned.step took).withoutSummaries
    cases event with
    | commit task ids =>
      unfold Store.step at stepped
      dsimp only at stepped
      split at stepped
      · rename_i telegrams cache opened
        split at stepped
        · rename_i statements db lookupIds ran
          cases stepped
          have recorded : l.record (.store (.commit task ids)) = l.log.store telegrams := by
            unfold Life.record
            dsimp only
            rw [opened]
          rw [recorded]
          refine ⟨interned, ?_, remembers.storeMany (refines.interned.tasks _ _ opened) ran⟩
          show l.keeper.store.stored ++ telegrams = l.log.kept ++ telegrams
          rw [refines.kept]
        · cases stepped
      · cases stepped
    | clear =>
      cases stepped
      exact ⟨interned, rfl, [], Remembers.clear _⟩
    | warm | restart =>
      cases stepped
      exact ⟨interned, refines.kept, rows, remembers⟩
    | begin task telegrams | rollback task | publish task =>
      unfold Store.step at stepped
      dsimp only at stepped
      split at stepped
      · cases stepped
        exact ⟨interned, refines.kept, rows, remembers⟩
      · cases stepped

theorem Life.Refines.step {event : LifeEvent} (refines : l.Refines engine)
    (taken : l.step engine settings event = some l') : l'.Refines engine := by
  cases event with
  | keeper event =>
    obtain ⟨keeper, took, rfl⟩ := Option.map_eq_some_iff.mp taken
    exact refines.keeper took
  | evictOlderThan cutoff =>
    obtain ⟨⟨db, n⟩, evicted, rfl⟩ := Option.map_eq_some_iff.mp taken
    obtain ⟨_, rfl⟩ := evictOlderThan_some evicted
    exact refines.left _
  | evictExpired now =>
    obtain ⟨⟨db, n⟩, evicted, rfl⟩ := Option.map_eq_some_iff.mp taken
    rcases evictExpired_some evicted with ⟨unlimited, _, rfl⟩ | ⟨days, limited, _, rfl⟩
    · rw [unlimited]
      obtain ⟨interned, kept, remembers⟩ := refines
      refine ⟨?_, rfl, remembers⟩
      unfold Life.left
      dsimp only [Option.elim_none]
      rw [← kept]
      exact interned
    · rw [limited]
      exact refines.left _

theorem run_refines {events : List LifeEvent} (ran : Life.run engine settings events = some l) :
    l.Refines engine := by
  refine EventMachine.run_keeps (fun _ _ _ refines taken => Life.Refines.step refines taken) ?_ ran
  refine ⟨⟨?_, ?_, .nil, ?_⟩, rfl, [], .nil, List.Subset.refl [], ?_, fun _ => rfl⟩
  · intro pair id found
    cases found
  · intro task transaction found
    cases found
  · intro row mem
    cases mem
  · intro row mem
    cases mem

/-! ## What the store says of itself -/

theorem Life.Refines.timestamps (refines : l.Refines engine) :
    (l.db.telegrams.map fun row => row.timestamp) = l.log.kept.map (StoredTelegram.instant engine.tzdb) := by
  have rows := refines.interned.telegrams
  rw [List.forall₂_map_left_iff] at rows
  rw [← refines.kept]
  exact map_eq_of_forall₂ rows fun row _ t stores => stores.timestamp

theorem Life.Refines.length (refines : l.Refines engine) : count l.db = l.log.kept.length := by
  rw [← refines.kept]
  exact refines.interned.length

theorem count_left (db : Db) (cutoff : ℤ) (dryRun : Bool) :
    count (if dryRun then db else db.deleteBefore cutoff) +
      (if dryRun then 0 else db.telegrams.countP fun row => row.timestamp < cutoff) = count db := by
  cases dryRun with
  | true => rfl
  | false => exact length_older (fun row : TelegramRow ℤ => row.timestamp) db.telegrams cutoff

theorem Life.Refines.expired (refines : l.Refines engine) (cutoff : ℤ) :
    (l.db.telegrams.countP fun row => row.timestamp < cutoff) = l.log.expired engine.tzdb cutoff := by
  have rows : ∀ {α : Type} (f : α → ℤ) (xs : List α),
      (xs.countP fun x => f x < cutoff) = (xs.map f).countP fun n => n < cutoff := by
    intro α f xs
    rw [List.countP_map]
    rfl
  rw [Log.expired, rows (fun row : TelegramRow ℤ => row.timestamp), rows (StoredTelegram.instant engine.tzdb),
    refines.timestamps]

theorem readBound_readable {bound : Option ℤ} (readable : ∀ n, bound = some n →
    DateTime.microsToDatetime n = some (.ofMicros n)) : readBound bound = some (bound.map .ofMicros) := by
  cases bound with
  | none => rfl
  | some n => rw [readBound, readable n rfl, Option.map_some, Option.map_some]

theorem Life.Refines.reports (refines : l.Refines engine) (readable : ∀ t ∈ l.log.kept, Readable engine t)
    (sizeBytes : Option ℕ) :
    ∃ stats, getStats engine settings l.db sizeBytes = some stats ∧ stats.telegramCount = l.log.kept.length ∧
      stats.oldestTimestamp = (l.log.oldest engine.tzdb).map .ofMicros ∧
      stats.newestTimestamp = (l.log.newest engine.tzdb).map .ofMicros := by
  have each : ∀ n ∈ l.log.kept.map (StoredTelegram.instant engine.tzdb),
      DateTime.microsToDatetime n = some (.ofMicros n) := by
    intro n mem
    obtain ⟨t, own, rfl⟩ := List.mem_map.mp mem
    exact readable t own
  refine ⟨⟨l.db.telegrams.length, (l.log.oldest engine.tzdb).map .ofMicros, (l.log.newest engine.tzdb).map .ofMicros,
    sizeBytes, dialectName engine.backend, settings.retentionDays⟩, ?_, refines.length, rfl, rfl⟩
  unfold getStats
  rw [refines.timestamps, readBound_readable fun n least => each n (List.min?_mem least),
    readBound_readable fun n greatest => each n (List.max?_mem greatest)]
  rfl

/-- **A store's counts are about the telegrams it keeps.** Whatever batches,
rollbacks, evictions, clears and restarts a store has been through, `count` is
the number of telegrams kept; an eviction, dry or not, returns how many of
them are older than its cutoff and takes exactly as many away, if any; and if
their instants can be read, the statistics have the oldest and the newest of
them and an unrestricted query with room for them, its limit one of 64 bits,
returns each of them once. -/
theorem store_refines_log {events : List LifeEvent} (ran : Life.run engine settings events = some l) :
    count l.db = l.log.kept.length ∧
      (∀ cutoff dryRun db n, evictOlderThan engine settings l.db cutoff dryRun = some (db, n) →
        n = l.log.expired engine.tzdb (cutoff.toMicros engine.tzdb) ∧
          count db + (if dryRun then 0 else n) = count l.db) ∧
      (∀ now dryRun db n, evictExpired engine settings l.db now dryRun = some (db, n) →
        n = (settings.retentionDays.elim 0 fun days => l.log.expired engine.tzdb (now - days * 86400000000)) ∧
          count db + (if dryRun then 0 else n) = count l.db) ∧
      ((∀ t ∈ l.log.kept, Readable engine t) →
        (∀ sizeBytes, ∃ stats, getStats engine settings l.db sizeBytes = some stats ∧
          stats.telegramCount = l.log.kept.length ∧
          stats.oldestTimestamp = (l.log.oldest engine.tzdb).map .ofMicros ∧
          stats.newestTimestamp = (l.log.newest engine.tzdb).map .ofMicros) ∧
        ∀ q sorting, q.Unrestricted → q.limit < 2 ^ 63 → l.log.kept.length ≤ q.limit →
          ∃ result, query engine l.db q sorting = some result ∧
            result.telegrams.Perm (l.log.kept.map (readBack engine)) ∧ result.totalCount = count l.db) := by
  have refines := run_refines ran
  refine ⟨refines.length, fun cutoff dryRun db n evicted => ?_, fun now dryRun db n evicted => ?_,
    fun readable => ⟨refines.reports readable, ?_⟩⟩
  · obtain ⟨rfl, rfl⟩ := evictOlderThan_some evicted
    exact ⟨refines.expired _, count_left l.db _ dryRun⟩
  · rcases evictExpired_some evicted with ⟨unlimited, rfl, rfl⟩ | ⟨days, limited, rfl, rfl⟩
    · rw [unlimited, ite_self]
      exact ⟨rfl, rfl⟩
    · rw [limited]
      exact ⟨refines.expired _, count_left l.db _ dryRun⟩
  · intro q sorting free limit room
    rw [← refines.kept] at readable room
    obtain ⟨result, reads, perm, total⟩ := refines.interned.reads_all sorting readable free room limit
    refine ⟨result, reads, ?_, ?_⟩
    · rw [← refines.kept]
      exact perm
    · rw [total, refines.length, ← refines.kept]
      rfl

/-- Two telegrams, stored in two processes, and an eviction. -/
def evictedAt (cutoff : ℤ) : List LifeEvent :=
  (inBatches firstRow [[sampleTelegram], [earlierSample]]).map LifeEvent.keeper ++ [.evictOlderThan (.ofMicros cutoff)]

theorem evicted_refines :
    ∃ l stats, Life.run sampleEngine {} (evictedAt 0) = some l ∧ count l.db = 1 ∧
      (∀ dryRun db n, evictOlderThan sampleEngine {} l.db (.ofMicros 1) dryRun = some (db, n) → n = 1) ∧
      getStats sampleEngine {} l.db none = some stats ∧ stats.oldestTimestamp = some (.ofMicros 0) := by
  obtain ⟨l, ran, kept⟩ : ∃ l, Life.run sampleEngine {} (evictedAt 0) = some l ∧ l.log.kept = [sampleTelegram] :=
    ⟨_, rfl, rfl⟩
  have readable : ∀ t ∈ l.log.kept, Readable sampleEngine t := by
    rw [kept]
    intro t mem
    rw [List.mem_singleton.mp mem]
    rfl
  obtain ⟨counted, evicts, _, reads⟩ := store_refines_log ran
  obtain ⟨stats, reported, _, oldest, _⟩ := (reads readable).1 none
  refine ⟨l, stats, ran, ?_, fun dryRun db n evicted => ?_, reported, ?_⟩
  · rw [counted, kept]
    rfl
  · rw [(evicts _ dryRun db n evicted).1, Log.expired, kept]
    rfl
  · rw [oldest, Log.oldest, kept]
    rfl

/-- **Last values outlive evictions.** Each destination that has been stored
since the last clear has exactly one last value: the first of all its
telegrams with the greatest instant, also if it has been evicted. -/
theorem last_values_outlive_evictions {events : List LifeEvent} (ran : Life.run engine settings events = some l)
    (steady : Steady engine.tzdb l.log.seen)
    (readable : ∀ t, Wins StoredTelegram.destination (StoredTelegram.instant engine.tzdb) l.log.seen t →
      Readable engine t) :
    ∃ last : List StoredTelegram, getLastUniqueTelegrams l.db = some (last.map (readBack engine)) ∧
      (last.map StoredTelegram.destination).Nodup ∧
      (∀ t ∈ l.log.seen, ∃ winner ∈ last, winner.destination = t.destination) ∧
      ∀ t, t ∈ last ↔ Wins StoredTelegram.destination (StoredTelegram.instant engine.tzdb) l.log.seen t := by
  obtain ⟨rows, remembers⟩ := (run_refines ran).remembers
  obtain ⟨winners, present⟩ : (∀ t, t ∈ lastValues engine.tzdb l.log.seen ↔ _) ∧ _ := mem_newest _ _ l.log.seen
  refine ⟨lastValues engine.tzdb l.log.seen, ?_, absorbAll_unique (by simp) _, present, winners⟩
  have related := (stores_agree engine l.db.lookup).absorbAll .nil remembers.written
  rw [← remembers.newest steady] at related
  exact summaries_read related fun t mem => readable t ((winners t).mp mem)

/-- Every telegram has been evicted, and the newest is still the last value. -/
theorem last_value_evicted :
    ∃ l, Life.run sampleEngine {} (evictedAt 1) = some l ∧ count l.db = 0 ∧
      ∃ last : List StoredTelegram, getLastUniqueTelegrams l.db = some (last.map (readBack sampleEngine)) ∧
        ∃ winner ∈ last, winner.destination = "1/2/3" := by
  obtain ⟨l, ran, none_kept, seen⟩ : ∃ l, Life.run sampleEngine {} (evictedAt 1) = some l ∧ count l.db = 0 ∧
    l.log.seen = [sampleTelegram, earlierSample] := ⟨_, rfl, rfl, rfl⟩
  have readable : ∀ t ∈ l.log.seen, Readable sampleEngine t := by
    rw [seen]
    simp only [List.mem_cons, List.not_mem_nil, or_false, forall_eq_or_imp, forall_eq]
    exact ⟨rfl, rfl⟩
  have steady : Steady sampleEngine.tzdb l.log.seen := by
    rw [seen]
    apply steady_of_fixed
    simp only [List.mem_cons, List.not_mem_nil, or_false, forall_eq_or_imp, forall_eq]
    exact ⟨⟨0, rfl⟩, 0, rfl⟩
  obtain ⟨last, reads, _, present, _⟩ :=
    last_values_outlive_evictions ran steady fun t wins => readable t wins.mem
  refine ⟨l, ran, none_kept, last, reads, ?_⟩
  apply present sampleTelegram
  rw [seen]
  exact List.mem_cons_self

/-- **Both backends report the same statistics.** -/
theorem stats_agree {events : List LifeEvent} (ran : Life.run engine settings events = some l)
    (uniform : Uniform engine.tzdb l.log.kept) (readable : ∀ t ∈ l.log.kept, Readable engine t)
    {capacity : ℕ} {batches : List (List StoredTelegram)} (stored : batches.flatten = l.log.kept)
    (room : l.log.kept.length ≤ capacity) (sizeBytes : Option ℕ) :
    ∃ fromMemory fromSql,
      (batches.foldl MemoryStore.storeMany { maxTelegrams := capacity }).getStats engine.tzdb = some fromMemory ∧
      getStats engine settings l.db sizeBytes = some fromSql ∧
      fromMemory.telegramCount = fromSql.telegramCount ∧
      fromMemory.oldestTimestamp.map (DateTime.toMicros engine.tzdb) =
        fromSql.oldestTimestamp.map (DateTime.toMicros engine.tzdb) ∧
      fromMemory.newestTimestamp.map (DateTime.toMicros engine.tzdb) =
        fromSql.newestTimestamp.map (DateTime.toMicros engine.tzdb) := by
  have all : (batches.foldl MemoryStore.storeMany { maxTelegrams := capacity }).telegrams = l.log.kept := by
    rw [MemoryStore.storeMany_all (by simpa [stored] using room), stored]
    rfl
  rw [← all] at uniform
  obtain ⟨fromMemory, reported, counted, oldest, newest⟩ := MemoryStore.reports uniform
  have refines := run_refines ran
  obtain ⟨fromSql, reported', counted', oldest', newest'⟩ := refines.reports readable sizeBytes
  have instants : ∀ bound : Option ℤ, (bound.map .ofMicros).map (DateTime.toMicros engine.tzdb) = bound := by
    intro bound
    cases bound with
    | none => rfl
    | some n => rw [Option.map_some, Option.map_some, DateTime.toMicros_ofMicros]
  refine ⟨fromMemory, fromSql, reported, reported', ?_, ?_, ?_⟩
  · rw [counted, counted', all]
  · rw [oldest, oldest', all, instants]
    rfl
  · rw [newest, newest', all, instants]
    rfl

theorem kept_sample_agrees :
    ∃ l fromMemory fromSql, Life.run sampleEngine {} (evictedAt 0) = some l ∧
      ([[sampleTelegram]].foldl MemoryStore.storeMany { maxTelegrams := 500 }).getStats sampleEngine.tzdb =
        some fromMemory ∧
      getStats sampleEngine {} l.db (some 4096) = some fromSql ∧
      fromMemory.telegramCount = fromSql.telegramCount := by
  obtain ⟨l, ran, kept⟩ : ∃ l, Life.run sampleEngine {} (evictedAt 0) = some l ∧ l.log.kept = [sampleTelegram] :=
    ⟨_, rfl, rfl⟩
  have uniform : Uniform sampleEngine.tzdb l.log.kept := by
    rw [kept]
    constructor
    · intro t mem
      rw [List.mem_singleton.mp mem]
      rfl
    · intro t mem u mem' _
      rw [List.mem_singleton.mp mem, List.mem_singleton.mp mem']
  have readable : ∀ t ∈ l.log.kept, Readable sampleEngine t := by
    rw [kept]
    intro t mem
    rw [List.mem_singleton.mp mem]
    rfl
  have room : l.log.kept.length ≤ 500 := by
    rw [kept]
    decide
  have stored : [[sampleTelegram]].flatten = l.log.kept := kept.symm
  obtain ⟨fromMemory, fromSql, reported, reported', counted, _⟩ :=
    stats_agree ran uniform readable stored room (some 4096)
  exact ⟨l, fromMemory, fromSql, ran, reported, reported', counted⟩

end Sql

end KnxTelegramStore
