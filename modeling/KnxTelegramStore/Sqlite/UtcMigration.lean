import KnxTelegramStore.Sql.LastValues
import KnxTelegramStore.Sqlite.OffsetIntervals

/-!
The conversion of a legacy database to UTC (`backends/sqlite.py`), deferred
past a first start that only records when it happened and which rowids there
were. Until a start names the zone, telegrams are stored in UTC next to rows
that hold the digits of a wall clock, and rows are evicted. The conversion
tells the two apart by rowid and by timestamp; `deferred_conversion_iff` says
when it does so correctly.
-/
namespace KnxTelegramStore.Sqlite
open EventMachine
open Sql (Db Columns TelegramRow LookupCache IdSource TieBreaker Stores storeMany)

/-! ## The UPDATE -/

/-- What `_convert_table_to_utc` makes of a timestamp, for the timestamps in
scope; `none` is an `OverflowError` near the ends of the calendar. -/
def shiftExpression (zone : Zone) (timestamps : List ℤ) : Option (ℤ → ℤ) :=
  match timestamps.min?, timestamps.max? with
  | some oldest, some newest =>
    if DateTime.minWall ≤ oldest ∧ newest + 2 * hour ≤ DateTime.maxWall then
      let intervals := offsetIntervals oldest newest zone
      if intervals.any fun interval => interval.offset ≠ 0 then
        some fun timestamp => timestamp - caseOffset intervals timestamp * second
      else some id
    else none
  | _, _ => some id

/-- Which rows a conversion takes for legacy ones. -/
structure Scopes where
  telegrams : TelegramRow ℤ → Bool
  lastGa : Columns ℤ → Bool

def maxRowidOf (db : Db) : ℕ := (db.telegrams.map TelegramRow.rowid).foldr max 0

/-- Two UPDATEs of the timestamp column. -/
def setTimestamps (db : Db) (telegrams : TelegramRow ℤ → ℤ) (lastGa : Columns ℤ → ℤ) : Db :=
  { db with
    telegrams := db.telegrams.map fun row => { row with timestamp := telegrams row }
    lastGa := db.lastGa.map fun row => { row with timestamp := lastGa row }
    rowids_unique := by
      rw [List.map_map]
      exact db.rowids_unique
    destinations_unique := by
      rw [List.map_map]
      exact db.destinations_unique }

/-- `BaseSQLStore.evict_older_than`. -/
def evictOlderThan (db : Db) (cutoff : ℤ) : Db :=
  { db with
    telegrams := db.telegrams.filter fun row => cutoff ≤ row.timestamp
    rowids_unique := db.rowids_unique.sublist (List.filter_sublist.map _) }

/-! ## A store between the upgrade and the conversion -/

/-- A writing store with the metadata the conversion reads. `written` is no
data of the program: the instants of the telegrams stored since the upgrade,
by the rowids they have been given. -/
structure Upgraded where
  db : Db
  cache : LookupCache
  /-- `last_ga_newest_reconciled` -/
  reconciled : Bool
  /-- `timestamps_utc` -/
  timestampsUtc : Bool
  /-- `timestamps_utc_from` -/
  utcFrom : Option ℤ
  /-- `timestamps_legacy_max_rowid` -/
  legacyMaxRowid : Option ℕ
  written : ℕ → Option ℤ

inductive UpgradeEvent where
  /-- `initialize`, with `legacy_timestamp_timezone` -/
  | start (now : ℤ) (zone : Option Zone) (tieBreaker : TieBreaker)
  | store (ids : IdSource) (telegrams : List StoredTelegram)
  | evict (cutoff : ℤ)
  /-- `migrate_timestamps_to_utc` by hand -/
  | convert (zone : Zone)

/-- `_legacy_row_scopes`. -/
def legacyRowScopes (zone : Zone) (s : Upgraded) : Scopes :=
  match s.utcFrom with
  | none => ⟨fun _ => true, fun _ => true⟩
  | some boundary =>
    match s.legacyMaxRowid with
    | none => ⟨fun row => row.timestamp < boundary, fun row => row.timestamp < boundary⟩
    | some marker =>
      if marker ≤ maxRowidOf s.db then
        ⟨fun row => row.rowid ≤ marker ∧ row.timestamp < zone.wallClock boundary, fun row => row.timestamp < boundary⟩
      else ⟨fun row => row.timestamp < boundary, fun row => row.timestamp < boundary⟩

/-- `migrate_timestamps_to_utc`, one transaction. One that raises is no step. -/
def Upgraded.migrate (s : Upgraded) (zone : Zone) : Option Upgraded :=
  if s.timestampsUtc then some s
  else do
    let scopes := legacyRowScopes zone s
    let telegrams ← shiftExpression zone ((s.db.telegrams.filter scopes.telegrams).map (·.timestamp))
    let lastGa ← shiftExpression zone ((s.db.lastGa.filter scopes.lastGa).map (·.timestamp))
    return { s with
      db := setTimestamps s.db
        (fun row => if scopes.telegrams row then telegrams row.timestamp else row.timestamp)
        (fun row => if scopes.lastGa row then lastGa row.timestamp else row.timestamp)
      timestampsUtc := true }

/-- `_classify_timestamp_convention`. -/
def Upgraded.classify (s : Upgraded) (now : ℤ) (zone : Option Zone) : Upgraded :=
  if s.timestampsUtc then s
  else if s.db.telegrams.isEmpty && s.db.lastGa.isEmpty then { s with timestampsUtc := true }
  else if s.utcFrom.isNone && zone.isNone then
    { s with utcFrom := some now, legacyMaxRowid := some (maxRowidOf s.db) }
  else s

/-- Warming the cache, and the reconcile. -/
def Upgraded.opened (s : Upgraded) (tieBreaker : TieBreaker) : Upgraded :=
  { s with
    db := s.db.reconcile tieBreaker s.reconciled
    cache := s.db.lookup.idOf
    reconciled := true }

/-- The telegrams of a batch get the next rowids. -/
def Upgraded.recorded (tzdb : TzDb) (s : Upgraded) (telegrams : List StoredTelegram) (rowid : ℕ) : Option ℤ :=
  if s.db.nextRowid ≤ rowid then telegrams[rowid - s.db.nextRowid]?.map (StoredTelegram.instant tzdb)
  else s.written rowid

def Upgraded.step (real : Reals) (tzdb : TzDb) (s : Upgraded) : UpgradeEvent → Option Upgraded
  | .start now zone tieBreaker =>
    match zone with
    | none => some ((s.classify now none).opened tieBreaker)
    | some source => ((s.classify now zone).migrate source).map fun migrated => migrated.opened tieBreaker
  | .store ids telegrams =>
    if telegrams.isEmpty then some s
    else
      match storeMany ⟨.sqlite, tzdb, real⟩ ids s.cache telegrams s.db with
      | (_, none) => none
      | (_, some (db, lookupIds)) =>
        some { s with
          db
          cache := s.cache.update lookupIds
          written := s.recorded tzdb telegrams }
  | .evict cutoff => some { s with db := evictOlderThan s.db cutoff }
  | .convert zone => s.migrate zone

/-- A database from before the upgrade. -/
def Upgraded.of (db : Db) (reconciled : Bool) : Upgraded :=
  ⟨db, fun _ => none, reconciled, false, none, none, fun _ => none⟩

variable {real : Reals} {tzdb : TzDb} {zone : Zone} {boundary : ℤ} {origin : Db} {s s' : Upgraded}
  {event : UpgradeEvent}

/-! ## One conversion -/

/-- The instant of a wall-clock reading of the zone, on its first pass. -/
def Zone.toUtc (zone : Zone) (wall : ℤ) : ℤ := wall - zone.utcoffset wall

theorem shiftExpression_eq (regular : zone.Regular) {timestamps : List ℤ} {shift : ℤ → ℤ}
    (made : shiftExpression zone timestamps = some shift) :
    ∀ timestamp ∈ timestamps, shift timestamp = zone.toUtc timestamp := by
  intro timestamp mem
  cases least : timestamps.min? with
  | none =>
    rw [List.min?_eq_none_iff.mp least] at mem
    cases mem
  | some oldest =>
    cases greatest : timestamps.max? with
    | none =>
      rw [List.max?_eq_none_iff.mp greatest] at mem
      cases mem
    | some newest =>
      have from_ := (List.min?_eq_some_iff.mp least).2 timestamp mem
      have upTo := (List.max?_eq_some_iff.mp greatest).2 timestamp mem
      have offset := caseOffset_eq regular from_ upTo
      simp only [shiftExpression, least, greatest] at made
      split at made
      · split at made
        · cases made
          show timestamp - caseOffset _ timestamp * second = _
          rw [offset, regular.offsetAt_mul]
          rfl
        · rename_i utc
          cases made
          have none : zone.offsetAt timestamp = 0 := by
            rw [← offset]
            by_contra some_
            obtain ⟨interval, own, same⟩ := caseOffset_mem some_
            refine utc (List.any_eq_true.mpr ⟨interval, own, decide_eq_true ?_⟩)
            rwa [← same]
          rw [Zone.toUtc, ← regular.offsetAt_mul, none, zero_mul, sub_zero]
          rfl
      · cases made

/-- The scopes of a conversion that finds both markers. -/
theorem migrate_telegrams (regular : zone.Regular) (unflagged : s.timestampsUtc = false)
    (migrated : s.migrate zone = some s') :
    s'.db.telegrams = s.db.telegrams.map (fun row => { row with
      timestamp := if (legacyRowScopes zone s).telegrams row then zone.toUtc row.timestamp else row.timestamp }) ∧
    s'.db.lastGa = s.db.lastGa.map (fun row => { row with
      timestamp := if (legacyRowScopes zone s).lastGa row then zone.toUtc row.timestamp else row.timestamp }) ∧
    s'.timestampsUtc = true ∧ s'.written = s.written := by
  unfold Upgraded.migrate at migrated
  rw [unflagged] at migrated
  simp only [Bool.false_eq_true, if_false, Option.bind_eq_bind, Option.bind_eq_some_iff, Option.pure_def,
    Option.some.injEq] at migrated
  obtain ⟨telegrams, made, lastGa, made', rfl⟩ := migrated
  refine ⟨List.map_congr_left fun row mem => ?_, List.map_congr_left fun row mem => ?_, rfl, rfl⟩
  · have shifted : (if (legacyRowScopes zone s).telegrams row then telegrams row.timestamp else row.timestamp) =
        if (legacyRowScopes zone s).telegrams row then zone.toUtc row.timestamp else row.timestamp := by
      refine ite_congr rfl (fun inScope => ?_) fun _ => rfl
      exact shiftExpression_eq regular made _ (List.mem_map_of_mem (List.mem_filter.mpr ⟨mem, inScope⟩))
    rw [← shifted]
  · have shifted : (if (legacyRowScopes zone s).lastGa row then lastGa row.timestamp else row.timestamp) =
        if (legacyRowScopes zone s).lastGa row then zone.toUtc row.timestamp else row.timestamp := by
      refine ite_congr rfl (fun inScope => ?_) fun _ => rfl
      exact shiftExpression_eq regular made' _ (List.mem_map_of_mem (List.mem_filter.mpr ⟨mem, inScope⟩))
    rw [← shifted]

/-! ## Runs that defer it -/

/-- A start does not name the zone, telegrams are no earlier than the upgrade,
and an eviction does not leave the table empty. -/
def Deferred (tzdb : TzDb) (boundary : ℤ) (s : Upgraded) : UpgradeEvent → Prop
  | .start _ zone _ => zone = none
  | .store _ telegrams => ∀ t ∈ telegrams, boundary ≤ t.instant tzdb
  | .evict cutoff => (evictOlderThan s.db cutoff).telegrams ≠ []
  | .convert _ => False

/-- The two kinds of rows, and the markers of the first start. -/
structure Mixed (origin : Db) (boundary : ℤ) (s : Upgraded) : Prop where
  unflagged : s.timestampsUtc = false
  utcFrom : s.utcFrom = some boundary
  legacyMaxRowid : s.legacyMaxRowid = some (maxRowidOf origin)
  nonempty : s.db.telegrams ≠ []
  truthful : s.cache.Truthful s.db.lookup
  legacy : ∀ row ∈ s.db.telegrams, s.written row.rowid = none → row ∈ origin.telegrams
  newer : ∀ row ∈ s.db.telegrams, ∀ instant, s.written row.rowid = some instant →
    row.timestamp = instant ∧ boundary ≤ instant

theorem truthful_idOf (db : Db) : LookupCache.Truthful db.lookup.idOf db.lookup :=
  fun _ _ found => Sql.StringLookup.idOf_eq_some.mp found

/-- A start warms the cache with what is there. -/
theorem truthful_opened (s : Upgraded) (tieBreaker : TieBreaker) :
    (s.opened tieBreaker).cache.Truthful (s.opened tieBreaker).db.lookup := by
  intro pair id found
  rw [Upgraded.opened, (Sql.reconcile_frame s.db tieBreaker s.reconciled).1]
  exact truthful_idOf s.db pair id found

theorem Mixed.opened (mixed : Mixed origin boundary s) (tieBreaker : TieBreaker) :
    Mixed origin boundary (s.opened tieBreaker) := by
  obtain ⟨_, telegrams⟩ := Sql.reconcile_frame s.db tieBreaker s.reconciled
  refine ⟨mixed.unflagged, mixed.utcFrom, mixed.legacyMaxRowid, ?_, truthful_opened s tieBreaker, ?_, ?_⟩
  · exact telegrams ▸ mixed.nonempty
  · exact telegrams ▸ mixed.legacy
  · exact telegrams ▸ mixed.newer

theorem classify_origin (rows : origin.telegrams ≠ []) (reconciled : Bool) (boundary : ℤ) :
    (Upgraded.of origin reconciled).classify boundary none =
      { Upgraded.of origin reconciled with utcFrom := some boundary, legacyMaxRowid := some (maxRowidOf origin) } := by
  simp [Upgraded.classify, Upgraded.of, rows]

/-- The first start records the markers. -/
theorem mixed_of {reconciled : Bool} {tieBreaker : TieBreaker} (rows : origin.telegrams ≠ [])
    (taken : (Upgraded.of origin reconciled).step real tzdb (.start boundary none tieBreaker) = some s) :
    Mixed origin boundary s := by
  cases taken
  refine Mixed.opened ?_ tieBreaker
  rw [classify_origin rows]
  exact ⟨rfl, rfl, rfl, rows, fun _ _ found => (nomatch found), fun _ mem _ => mem, fun _ _ _ found => (nomatch found)⟩

theorem first_start {reconciled : Bool} {tieBreaker : TieBreaker} (rows : origin.telegrams ≠ [])
    (taken : (Upgraded.of origin reconciled).step real tzdb (.start boundary none tieBreaker) = some s) :
    s.db.telegrams = origin.telegrams ∧ s.written = fun _ => none := by
  cases taken
  rw [classify_origin rows]
  exact ⟨(Sql.reconcile_frame origin tieBreaker reconciled).2, rfl⟩

/-- A row after a `store_many` was there before, or is one of its telegrams. -/
theorem rows_stored {ids : IdSource} {telegrams : List StoredTelegram} {statements : List Sql.Statement} {db : Db}
    {lookupIds : LookupCache} (truthful : s.cache.Truthful s.db.lookup)
    (ran : storeMany ⟨.sqlite, tzdb, real⟩ ids s.cache telegrams s.db = (statements, some (db, lookupIds)))
    {row : TelegramRow ℤ} (mem : row ∈ db.telegrams) :
    (row ∈ s.db.telegrams ∧ s.recorded tzdb telegrams row.rowid = s.written row.rowid) ∨
      s.db.nextRowid ≤ row.rowid ∧ ∃ t ∈ telegrams, row.timestamp = t.instant tzdb ∧
        s.recorded tzdb telegrams row.rowid = some (t.instant tzdb) := by
  obtain ⟨rows, inserted, stores⟩ := Sql.storeMany_inserts truthful ran
  rw [inserted] at mem
  rcases List.mem_append.mp mem with old | new
  · exact .inl ⟨old, if_neg (not_le.mpr (Sql.rowid_lt_next s.db old))⟩
  · obtain ⟨i, rowid, found⟩ := Sql.mem_numbered new
    obtain ⟨t, own, stored⟩ := Sql.forall₂_getElem stores found
    refine .inr ⟨by omega, t, List.mem_of_getElem? own, stored.timestamp, ?_⟩
    rw [Upgraded.recorded, if_pos (by omega), rowid, Nat.add_sub_cancel_left, own]
    rfl

/-- A later start without the zone. -/
theorem Mixed.classified (mixed : Mixed origin boundary s) (now : ℤ) : s.classify now none = s := by
  simp [Upgraded.classify, mixed.unflagged, mixed.utcFrom, mixed.nonempty]

theorem Mixed.step (mixed : Mixed origin boundary s) (deferred : Deferred tzdb boundary s event)
    (taken : s.step real tzdb event = some s') : Mixed origin boundary s' := by
  cases event with
  | start now zone tieBreaker =>
    cases deferred
    cases taken
    rw [mixed.classified]
    exact mixed.opened tieBreaker
  | store ids telegrams =>
    simp only [Upgraded.step] at taken
    split at taken
    · cases taken
      exact mixed
    · split at taken
      · cases taken
      · rename_i statements db lookupIds ran
        cases taken
        have stored := Sql.storeMany_stored mixed.truthful ran
        obtain ⟨rows, inserted, _⟩ := Sql.storeMany_inserts mixed.truthful ran
        refine ⟨mixed.unflagged, mixed.utcFrom, mixed.legacyMaxRowid, ?_,
          (mixed.truthful.grows stored.grows).update stored.truthful, fun row mem unwritten => ?_,
          fun row mem instant recorded => ?_⟩
        · rw [inserted]
          exact fun empty => mixed.nonempty (List.append_eq_nil_iff.mp empty).1
        · rcases rows_stored mixed.truthful ran mem with ⟨old, same⟩ | ⟨_, t, _, _, recorded⟩
          · exact mixed.legacy row old (same.symm.trans unwritten)
          · cases recorded.symm.trans unwritten
        · rcases rows_stored mixed.truthful ran mem with ⟨old, same⟩ | ⟨_, t, own, timestamp, recorded'⟩
          · exact mixed.newer row old instant (same.symm.trans recorded)
          · cases recorded'.symm.trans recorded
            exact ⟨timestamp, deferred t own⟩
  | evict cutoff =>
    cases taken
    have kept : ∀ row ∈ (evictOlderThan s.db cutoff).telegrams, row ∈ s.db.telegrams :=
      fun row mem => List.mem_of_mem_filter mem
    exact { mixed with
      nonempty := deferred
      legacy := fun row mem => mixed.legacy row (kept row mem)
      newer := fun row mem => mixed.newer row (kept row mem) }
  | convert zone => cases deferred

theorem run_mixed {events : List UpgradeEvent} (mixed : Mixed origin boundary s)
    (deferred : Along (Upgraded.step real tzdb) (Deferred tzdb boundary) s events)
    (ran : run (Upgraded.step real tzdb) s events = some s') : Mixed origin boundary s' :=
  run_invariant (fun _ _ _ mixed deferred taken => mixed.step deferred taken) mixed deferred ran

/-! ## The conversion -/

/-- A conversion with the zone, by hand or at a start. -/
def Converts (zone : Zone) (event : UpgradeEvent) : Prop :=
  event = .convert zone ∨ ∃ now tieBreaker, event = .start now (some zone) tieBreaker

/-- The marker is not above the largest rowid. -/
def MarkerStands (origin : Db) (s : Upgraded) : Prop := maxRowidOf origin ≤ maxRowidOf s.db

instance (origin : Db) (s : Upgraded) : Decidable (MarkerStands origin s) :=
  inferInstanceAs (Decidable (maxRowidOf origin ≤ maxRowidOf s.db))

/-- Rows from before the upgrade read below its boundary, and no later row has
got a rowid of theirs and an instant that reads below it; unless the zone is at
UTC there. -/
structure Separated (zone : Zone) (origin : Db) (boundary : ℤ) (s : Upgraded) : Prop where
  legacy : MarkerStands origin s → ∀ row ∈ s.db.telegrams, s.written row.rowid = none →
    row.timestamp < zone.wallClock boundary ∨ zone.utcoffset row.timestamp = 0
  stale : ¬ MarkerStands origin s → ∀ row ∈ s.db.telegrams, s.written row.rowid = none →
    row.timestamp < boundary ∨ zone.utcoffset row.timestamp = 0
  newer : MarkerStands origin s → ∀ row ∈ s.db.telegrams, s.written row.rowid ≠ none →
    maxRowidOf origin < row.rowid ∨ zone.wallClock boundary ≤ row.timestamp ∨ zone.utcoffset row.timestamp = 0

/-- Every row from before the upgrade is shifted by the offset at its own
reading, and no later one is. -/
structure ConvertedOnce (zone : Zone) (origin : Db) (s : Upgraded) : Prop where
  legacy : ∀ row ∈ s.db.telegrams, s.written row.rowid = none →
    ∃ original ∈ origin.telegrams, row = { original with timestamp := zone.toUtc original.timestamp }
  newer : ∀ row ∈ s.db.telegrams, ∀ instant, s.written row.rowid = some instant → row.timestamp = instant

theorem rowid_le {db : Db} {row : TelegramRow ℤ} (mem : row ∈ db.telegrams) : row.rowid ≤ maxRowidOf db :=
  Sql.le_foldr_max (List.mem_map_of_mem mem)

theorem toUtc_eq_self {wall : ℤ} : zone.toUtc wall = wall ↔ zone.utcoffset wall = 0 := by
  unfold Zone.toUtc
  omega

/-- Once flagged, a file is left alone. -/
theorem convert_again (flagged : s.timestampsUtc = true) (converts : Converts zone event)
    (taken : s.step real tzdb event = some s') :
    s'.db.telegrams = s.db.telegrams ∧ s'.timestampsUtc = true ∧ s'.written = s.written := by
  have idle : s.migrate zone = some s := if_pos flagged
  rcases converts with rfl | ⟨now, tieBreaker, rfl⟩
  · cases idle.symm.trans taken
    exact ⟨rfl, flagged, rfl⟩
  · have classified : s.classify now (some zone) = s := if_pos flagged
    simp only [Upgraded.step, classified, idle, Option.map_some, Option.some.injEq] at taken
    cases taken
    exact ⟨(Sql.reconcile_frame s.db tieBreaker s.reconciled).2, flagged, rfl⟩

/-- The first conversion. -/
theorem Mixed.converts (regular : zone.Regular) (mixed : Mixed origin boundary s) (converts : Converts zone event)
    (taken : s.step real tzdb event = some s') :
    s'.db.telegrams = s.db.telegrams.map (fun row => { row with
      timestamp := if (legacyRowScopes zone s).telegrams row then zone.toUtc row.timestamp else row.timestamp }) ∧
    s'.timestampsUtc = true ∧ s'.written = s.written := by
  rcases converts with rfl | ⟨now, tieBreaker, rfl⟩
  · obtain ⟨telegrams, _, flagged, written⟩ := migrate_telegrams regular mixed.unflagged taken
    exact ⟨telegrams, flagged, written⟩
  · have classified : s.classify now (some zone) = s := by
      simp [Upgraded.classify, mixed.unflagged, mixed.nonempty]
    simp only [Upgraded.step, classified] at taken
    obtain ⟨migrated, made, rfl⟩ := Option.map_eq_some_iff.mp taken
    obtain ⟨telegrams, _, flagged, written⟩ := migrate_telegrams regular mixed.unflagged made
    exact ⟨(Sql.reconcile_frame migrated.db tieBreaker migrated.reconciled).2.trans telegrams, flagged, written⟩

/-- The rows a conversion takes for legacy ones. -/
theorem Mixed.inScope (mixed : Mixed origin boundary s) (row : TelegramRow ℤ) :
    (legacyRowScopes zone s).telegrams row = true ↔
      if MarkerStands origin s then row.rowid ≤ maxRowidOf origin ∧ row.timestamp < zone.wallClock boundary
      else row.timestamp < boundary := by
  unfold legacyRowScopes
  rw [mixed.utcFrom, mixed.legacyMaxRowid]
  dsimp only
  by_cases stands : MarkerStands origin s
  · have reached : maxRowidOf origin ≤ maxRowidOf s.db := stands
    rw [if_pos reached, if_pos stands]
    exact decide_eq_true_iff
  · have above : ¬ maxRowidOf origin ≤ maxRowidOf s.db := stands
    rw [if_neg above, if_neg stands]
    exact decide_eq_true_iff

/-- A row as the conversion leaves it. -/
def shifted (zone : Zone) (s : Upgraded) (row : TelegramRow ℤ) : TelegramRow ℤ :=
  { row with timestamp := if (legacyRowScopes zone s).telegrams row then zone.toUtc row.timestamp else row.timestamp }

/-- What happens to one row says whether it was rightly in scope. -/
theorem Mixed.shifted_legacy (mixed : Mixed origin boundary s) {row : TelegramRow ℤ} (mem : row ∈ s.db.telegrams)
    (unwritten : s.written row.rowid = none) :
    (∃ original ∈ origin.telegrams, shifted zone s row = { original with timestamp := zone.toUtc original.timestamp }) ↔
      (legacyRowScopes zone s).telegrams row = true ∨ zone.utcoffset row.timestamp = 0 := by
  have own := mixed.legacy row mem unwritten
  constructor
  · rintro ⟨original, mem', same⟩
    have rowid := congrArg TelegramRow.rowid same
    cases List.inj_on_of_nodup_map origin.rowids_unique own mem' rowid
    have timestamp := congrArg (fun row : TelegramRow ℤ => row.timestamp) same
    by_cases inScope : (legacyRowScopes zone s).telegrams row = true
    · exact .inl inScope
    · refine .inr (toUtc_eq_self.mp (timestamp.symm.trans ?_))
      exact if_neg inScope
  · intro either
    refine ⟨row, own, ?_⟩
    have timestamp : (if (legacyRowScopes zone s).telegrams row then zone.toUtc row.timestamp else row.timestamp) =
        zone.toUtc row.timestamp := by
      split
      · rfl
      · rename_i outside
        exact (toUtc_eq_self.mpr (either.resolve_left outside)).symm
    rw [shifted, timestamp]

theorem shifted_newer (row : TelegramRow ℤ) :
    (shifted zone s row).timestamp = row.timestamp ↔
      ¬ (legacyRowScopes zone s).telegrams row = true ∨ zone.utcoffset row.timestamp = 0 := by
  unfold shifted
  dsimp only
  by_cases inScope : (legacyRowScopes zone s).telegrams row = true
  · rw [if_pos inScope, toUtc_eq_self]
    exact ⟨.inr, fun either => either.resolve_left (not_not.mpr inScope)⟩
  · rw [if_neg inScope]
    exact iff_of_true rfl (.inl inScope)

/-- A file is converted once if every row was rightly in scope, or not. -/
theorem Mixed.convertedOnce_iff (mixed : Mixed origin boundary s)
    (telegrams : s'.db.telegrams = s.db.telegrams.map (shifted zone s)) (written : s'.written = s.written) :
    ConvertedOnce zone origin s' ↔ ∀ row ∈ s.db.telegrams,
      (s.written row.rowid = none → (legacyRowScopes zone s).telegrams row = true ∨ zone.utcoffset row.timestamp = 0) ∧
        (s.written row.rowid ≠ none →
          ¬ (legacyRowScopes zone s).telegrams row = true ∨ zone.utcoffset row.timestamp = 0) := by
  constructor
  · intro converted row mem
    have mem' : shifted zone s row ∈ s'.db.telegrams := telegrams ▸ List.mem_map_of_mem mem
    refine ⟨fun unwritten => ?_, fun recorded => ?_⟩
    · exact (mixed.shifted_legacy mem unwritten).mp (converted.legacy _ mem' (written ▸ unwritten))
    · obtain ⟨instant, some_⟩ := Option.ne_none_iff_exists'.mp recorded
      refine (shifted_newer row).mp ?_
      rw [converted.newer _ mem' instant (written ▸ some_), (mixed.newer row mem instant some_).1]
  · intro each
    refine ⟨fun row' mem' unwritten => ?_, fun row' mem' instant some_ => ?_⟩
    · rw [telegrams] at mem'
      obtain ⟨row, mem, rfl⟩ := List.mem_map.mp mem'
      rw [written] at unwritten
      exact (mixed.shifted_legacy mem unwritten).mpr ((each row mem).1 unwritten)
    · rw [telegrams] at mem'
      obtain ⟨row, mem, rfl⟩ := List.mem_map.mp mem'
      rw [written] at some_
      have recorded : s.written row.rowid ≠ none := Option.ne_none_iff_exists'.mpr ⟨instant, some_⟩
      rw [(shifted_newer row).mpr ((each row mem).2 recorded)]
      exact (mixed.newer row mem instant some_).1

/-- The rows are separated if the scope of the conversion is right about each. -/
theorem Mixed.separated_iff (mixed : Mixed origin boundary s) :
    Separated zone origin boundary s ↔ ∀ row ∈ s.db.telegrams,
      (s.written row.rowid = none → (legacyRowScopes zone s).telegrams row = true ∨ zone.utcoffset row.timestamp = 0) ∧
        (s.written row.rowid ≠ none →
          ¬ (legacyRowScopes zone s).telegrams row = true ∨ zone.utcoffset row.timestamp = 0) := by
  by_cases stands : MarkerStands origin s
  · simp only [mixed.inScope, if_pos stands]
    constructor
    · intro separated row mem
      refine ⟨fun unwritten => ?_, fun recorded => ?_⟩
      · have low : row.rowid ≤ maxRowidOf origin := rowid_le (mixed.legacy row mem unwritten)
        exact (separated.legacy stands row mem unwritten).imp_left fun below => ⟨low, below⟩
      · rcases separated.newer stands row mem recorded with high | above | utc
        · exact .inl fun both => absurd both.1 (not_le.mpr high)
        · exact .inl fun both => absurd both.2 (not_lt.mpr above)
        · exact .inr utc
    · intro each
      refine ⟨fun _ row mem unwritten => ((each row mem).1 unwritten).imp_left And.right,
        fun stale => absurd stands stale, fun _ row mem recorded => ?_⟩
      rcases (each row mem).2 recorded with outside | utc
      · rcases not_and_or.mp outside with high | above
        · exact .inl (not_le.mp high)
        · exact .inr (.inl (not_lt.mp above))
      · exact .inr (.inr utc)
  · simp only [mixed.inScope, if_neg stands]
    constructor
    · intro separated row mem
      refine ⟨separated.stale stands row mem, fun recorded => .inl (not_lt.mpr ?_)⟩
      obtain ⟨instant, some_⟩ := Option.ne_none_iff_exists'.mp recorded
      obtain ⟨same, after⟩ := mixed.newer row mem instant some_
      exact same ▸ after
    · intro each
      exact ⟨fun fresh => absurd fresh stands, fun _ row mem => (each row mem).1, fun fresh => absurd fresh stands⟩

/-- The first conversion of a run decides, the others leave the file alone. -/
theorem Mixed.conversion_iff (regular : zone.Regular) (mixed : Mixed origin boundary s)
    {conversions : List UpgradeEvent}
    (some_ : conversions ≠ []) (converts : ∀ event ∈ conversions, Converts zone event)
    (converted : run (Upgraded.step real tzdb) s conversions = some s') :
    ConvertedOnce zone origin s' ↔ Separated zone origin boundary s := by
  obtain ⟨event, others, rfl⟩ := List.exists_cons_of_ne_nil some_
  obtain ⟨next, taken, later⟩ := run_cons.mp converted
  obtain ⟨telegrams, flagged, written⟩ := mixed.converts regular (converts event List.mem_cons_self) taken
  have idle := run_invariant (I := fun now => now.db.telegrams = next.db.telegrams ∧ now.timestampsUtc = true ∧
      now.written = next.written) (fun now event after held converts taken => by
    obtain ⟨same, flagged, same'⟩ := convert_again held.2.1 converts taken
    exact ⟨same.trans held.1, flagged, same'.trans held.2.2⟩) ⟨rfl, flagged, rfl⟩
    (along_of_mem fun event mem _ => converts event (List.mem_cons_of_mem _ mem)) later
  rw [mixed.convertedOnce_iff (idle.1.trans telegrams) (idle.2.2.trans written), mixed.separated_iff]

/-- **A deferred conversion shifts each legacy row once, and no newer row**, in
exactly the histories that keep the two apart. -/
theorem deferred_conversion_iff (regular : zone.Regular) (rows : origin.telegrams ≠ []) {reconciled : Bool}
    {tieBreaker : TieBreaker} {events conversions : List UpgradeEvent} {first : Upgraded}
    (upgraded : (Upgraded.of origin reconciled).step real tzdb (.start boundary none tieBreaker) = some first)
    (deferred : Along (Upgraded.step real tzdb) (Deferred tzdb boundary) first events)
    (ran : run (Upgraded.step real tzdb) first events = some s) (some_ : conversions ≠ [])
    (converts : ∀ event ∈ conversions, Converts zone event)
    (converted : run (Upgraded.step real tzdb) s conversions = some s') :
    ConvertedOnce zone origin s' ↔ Separated zone origin boundary s :=
  (run_mixed (mixed_of rows upgraded) deferred ran).conversion_iff regular some_ converts converted

/-! ## Histories that keep them apart -/

/-- The rows of a legacy database are in the order of their readings, and read
below the boundary. -/
structure Orderly (zone : Zone) (origin : Db) (boundary : ℤ) : Prop where
  ordered : ∀ row ∈ origin.telegrams, ∀ row' ∈ origin.telegrams, row.rowid ≤ row'.rowid → row.timestamp ≤ row'.timestamp
  before : ∀ row ∈ origin.telegrams, row.timestamp < zone.wallClock boundary

/-- Newer rows are above the marker, and its row is the last of the legacy rows
to go. -/
structure InOrder (origin : Db) (s : Upgraded) : Prop where
  newer : ∀ row ∈ s.db.telegrams, s.written row.rowid ≠ none → maxRowidOf origin < row.rowid
  last : ∀ row ∈ s.db.telegrams, s.written row.rowid = none → ∃ row' ∈ s.db.telegrams, row'.rowid = maxRowidOf origin

theorem foldr_max_mem {ids : List ℕ} (some_ : ids ≠ []) : ids.foldr max 0 ∈ ids := by
  induction ids with
  | nil => exact absurd rfl some_
  | cons id ids ih =>
    rw [List.foldr_cons]
    by_cases last : ids = []
    · rw [last, List.foldr_nil, max_eq_left (Nat.zero_le id)]
      exact List.mem_singleton_self id
    · rcases max_choice id (ids.foldr max 0) with same | same
      · rw [same]
        exact List.mem_cons_self
      · rw [same]
        exact List.mem_cons_of_mem _ (ih last)

theorem exists_maxRowid {db : Db} (rows : db.telegrams ≠ []) : ∃ row ∈ db.telegrams, row.rowid = maxRowidOf db :=
  List.mem_map.mp (foldr_max_mem (mt List.map_eq_nil_iff.mp rows))

theorem InOrder.stands (inOrder : InOrder origin s) (rows : s.db.telegrams ≠ []) : MarkerStands origin s := by
  obtain ⟨row, mem⟩ := List.exists_mem_of_ne_nil _ rows
  by_cases unwritten : s.written row.rowid = none
  · obtain ⟨last, mem', same⟩ := inOrder.last row mem unwritten
    exact le_of_eq_of_le same.symm (rowid_le mem')
  · exact (le_of_lt (inOrder.newer row mem unwritten)).trans (rowid_le mem)

theorem InOrder.step (orderly : Orderly zone origin boundary) (mixed : Mixed origin boundary s)
    (inOrder : InOrder origin s)
    (deferred : Deferred tzdb boundary s event) (taken : s.step real tzdb event = some s') : InOrder origin s' := by
  cases event with
  | start now source tieBreaker =>
    cases deferred
    cases taken
    obtain ⟨_, telegrams⟩ := Sql.reconcile_frame s.db tieBreaker s.reconciled
    rw [mixed.classified]
    exact ⟨telegrams ▸ inOrder.newer, telegrams ▸ inOrder.last⟩
  | store ids telegrams =>
    simp only [Upgraded.step] at taken
    split at taken
    · cases taken
      exact inOrder
    · split at taken
      · cases taken
      · rename_i statements db lookupIds ran
        cases taken
        have stands := inOrder.stands mixed.nonempty
        obtain ⟨rows, inserted, _⟩ := Sql.storeMany_inserts mixed.truthful ran
        refine ⟨fun row mem recorded => ?_, fun row mem unwritten => ?_⟩
        · rcases rows_stored mixed.truthful ran mem with ⟨old, same⟩ | ⟨above, _⟩
          · exact inOrder.newer row old (same ▸ recorded)
          · exact Nat.lt_of_lt_of_le (Nat.lt_succ_of_le stands) above
        · rcases rows_stored mixed.truthful ran mem with ⟨old, same⟩ | ⟨_, t, _, _, recorded⟩
          · obtain ⟨last, mem', own⟩ := inOrder.last row old (same.symm.trans unwritten)
            exact ⟨last, inserted ▸ List.mem_append_left _ mem', own⟩
          · cases recorded.symm.trans unwritten
  | evict cutoff =>
    cases taken
    refine ⟨fun row mem => inOrder.newer row (List.mem_of_mem_filter mem), fun row mem unwritten => ?_⟩
    obtain ⟨kept, late⟩ := List.mem_filter.mp mem
    obtain ⟨last, mem', own⟩ := inOrder.last row kept unwritten
    -- the marker's row reads no earlier than a legacy row that stays
    have unwritten' : s.written last.rowid = none := by
      by_contra recorded
      have above := inOrder.newer last mem' recorded
      omega
    have legacy := mixed.legacy row kept unwritten
    have later := orderly.ordered row legacy last (mixed.legacy last mem' unwritten') (own ▸ rowid_le legacy)
    have stays : cutoff ≤ last.timestamp := (of_decide_eq_true late).trans later
    exact ⟨last, List.mem_filter.mpr ⟨mem', decide_eq_true stays⟩, own⟩
  | convert source => cases deferred

/-- Evictions of an orderly database, however many, keep the rows apart as long
as the table is not emptied. -/
theorem orderly_separated (orderly : Orderly zone origin boundary) (rows : origin.telegrams ≠ []) {reconciled : Bool}
    {tieBreaker : TieBreaker} {events : List UpgradeEvent} {first : Upgraded}
    (upgraded : (Upgraded.of origin reconciled).step real tzdb (.start boundary none tieBreaker) = some first)
    (deferred : Along (Upgraded.step real tzdb) (Deferred tzdb boundary) first events)
    (ran : run (Upgraded.step real tzdb) first events = some s) : Separated zone origin boundary s := by
  have start : InOrder origin first := by
    obtain ⟨telegrams, written⟩ := first_start rows upgraded
    refine ⟨fun row _ recorded => absurd (congrFun written row.rowid) recorded, fun _ _ _ => ?_⟩
    rw [telegrams]
    exact exists_maxRowid rows
  obtain ⟨mixed, inOrder⟩ := run_invariant (I := fun now => Mixed origin boundary now ∧ InOrder origin now)
    (fun _ _ _ both deferred taken => ⟨both.1.step deferred taken, both.2.step orderly both.1 deferred taken⟩)
    ⟨mixed_of rows upgraded, start⟩ deferred ran
  have stands := inOrder.stands mixed.nonempty
  exact ⟨fun _ row mem unwritten => .inl (orderly.before row (mixed.legacy row mem unwritten)),
    fun stale => absurd stands stale, fun _ row mem recorded => .inl (inOrder.newer row mem recorded)⟩

/-! ## Databases -/

theorem shiftExpression_some {timestamps : List ℤ}
    (calendar : ∀ timestamp ∈ timestamps, DateTime.minWall ≤ timestamp ∧ timestamp + 2 * hour ≤ DateTime.maxWall) :
    ∃ shift, shiftExpression zone timestamps = some shift := by
  unfold shiftExpression
  split
  · rename_i oldest newest least greatest
    have low := (calendar oldest (List.min?_eq_some_iff.mp least).1).1
    have high := (calendar newest (List.max?_eq_some_iff.mp greatest).1).2
    rw [if_pos ⟨low, high⟩]
    dsimp only
    split <;> exact ⟨_, rfl⟩
  · exact ⟨_, rfl⟩

/-- A conversion of rows that are not at the ends of the calendar does not raise. -/
theorem migrate_returns (telegrams : ∀ row ∈ s.db.telegrams, DateTime.minWall ≤ row.timestamp ∧
      row.timestamp + 2 * hour ≤ DateTime.maxWall)
    (lastGa : ∀ row ∈ s.db.lastGa, DateTime.minWall ≤ row.timestamp ∧ row.timestamp + 2 * hour ≤ DateTime.maxWall) :
    ∃ s', s.migrate zone = some s' := by
  unfold Upgraded.migrate
  split
  · exact ⟨s, rfl⟩
  · obtain ⟨shift, made⟩ : ∃ shift, shiftExpression zone
        ((s.db.telegrams.filter (legacyRowScopes zone s).telegrams).map (·.timestamp)) = some shift := by
      refine shiftExpression_some fun timestamp mem => ?_
      obtain ⟨row, own, rfl⟩ := List.mem_map.mp mem
      exact telegrams row (List.mem_of_mem_filter own)
    obtain ⟨shift', made'⟩ : ∃ shift, shiftExpression zone
        ((s.db.lastGa.filter (legacyRowScopes zone s).lastGa).map (·.timestamp)) = some shift := by
      refine shiftExpression_some fun timestamp mem => ?_
      obtain ⟨row, own, rfl⟩ := List.mem_map.mp mem
      exact lastGa row (List.mem_of_mem_filter own)
    dsimp only
    rw [made, made']
    exact ⟨_, rfl⟩

/-- Two hours ahead of UTC all year. -/
def ahead : Zone := ⟨fun _ => 7200000000, fun instant => instant + 7200000000⟩

theorem ahead_regular : ahead.Regular where
  seconds _ := ⟨7200, rfl⟩
  onSeconds _ changes := absurd rfl changes
  hourly _ _ changes := absurd rfl changes

/-- Two hours ahead until the epoch, when the clocks are set back by one. -/
def setBackAtEpoch : Zone where
  utcoffset wall := if wall < 7200000000 then 7200000000 else 3600000000
  wallClock instant := if instant < 0 then instant + 7200000000 else instant + 3600000000

theorem setBack_regular : setBackAtEpoch.Regular := by
  have only : ∀ c, StepFunction.Changes setBackAtEpoch.utcoffset c → c = 7200000000 := by
    intro c changes
    unfold StepFunction.Changes setBackAtEpoch at changes
    dsimp only at changes
    split_ifs at changes <;> omega
  refine ⟨fun wall => ?_, fun c changes => ?_, fun c c' changes changes' before => ?_⟩
  · unfold setBackAtEpoch second
    dsimp only
    split
    · exact ⟨7200, rfl⟩
    · exact ⟨3600, rfl⟩
  · exact ⟨7200, only c changes⟩
  · have first := only c changes
    have later := only c' changes'
    omega

def legacyRow (rowid : ℕ) (digits : ℤ) : TelegramRow ℤ where
  rowid := rowid
  timestamp := digits
  sourceId := 1
  destinationId := 2
  telegramtypeId := 3
  directionId := 4
  sourceNameId := none
  destinationNameId := none
  payload := none
  dptMain := none
  dptSub := none
  value := .null
  valueNumeric := none
  rawData := none
  dataSecure := none

def legacyDb (telegrams : List (TelegramRow ℤ)) (rowids : (telegrams.map TelegramRow.rowid).Nodup) : Db where
  lookup :=
    { rows := [⟨1, .source, "1.1.1"⟩, ⟨2, .destination, "1/2/3"⟩, ⟨3, .telegramtype, "GroupValueWrite"⟩,
        ⟨4, .direction, "Incoming"⟩]
      ids_unique := by decide
      pairs_unique := by decide }
  telegrams := telegrams
  rowids_unique := rowids

/-- A minute before the epoch, on a clock two hours ahead. -/
def minuteBefore : Db := legacyDb [legacyRow 1 7140000000] (by decide)

def storeSample : UpgradeEvent := .store .sqlite [Sql.sampleTelegram]

theorem sample_deferred {s : Upgraded} : Along (Upgraded.step sampleReals Sql.sampleEngine.tzdb)
    (Deferred Sql.sampleEngine.tzdb 0) s [storeSample] := by
  refine ⟨fun t mem => ?_, fun _ _ => trivial⟩
  rw [List.mem_singleton.mp mem]
  decide

/-- The timestamps of a table, one by one. -/
theorem timestamps_satisfy {ρ : Type} {P : ℤ → Prop} {rows : List ρ} {timestamp : ρ → ℤ} {timestamps : List ℤ}
    (same : rows.map timestamp = timestamps) (all : ∀ timestamp ∈ timestamps, P timestamp) :
    ∀ row ∈ rows, P (timestamp row) :=
  fun _ mem => all _ (same ▸ List.mem_map_of_mem mem)

/-- None is at an end of the calendar. -/
theorem in_calendar {ρ : Type} {rows : List ρ} {timestamp : ρ → ℤ} {timestamps : List ℤ}
    (same : rows.map timestamp = timestamps)
    (calendar : ∀ timestamp ∈ timestamps, DateTime.minWall ≤ timestamp ∧ timestamp + 2 * hour ≤ DateTime.maxWall) :
    ∀ row ∈ rows, DateTime.minWall ≤ timestamp row ∧ timestamp row + 2 * hour ≤ DateTime.maxWall :=
  timestamps_satisfy same calendar

theorem minute_before_converted :
    ∃ first s s', (Upgraded.of minuteBefore false).step sampleReals Sql.sampleEngine.tzdb
      (.start 0 none Sql.firstRow) = some first ∧
      run (Upgraded.step sampleReals Sql.sampleEngine.tzdb) first [storeSample] = some s ∧
      run (Upgraded.step sampleReals Sql.sampleEngine.tzdb) s [.convert ahead, .convert ahead] = some s' ∧
      ConvertedOnce ahead minuteBefore s' := by
  obtain ⟨first, upgraded⟩ : ∃ first, (Upgraded.of minuteBefore false).step sampleReals Sql.sampleEngine.tzdb
      (.start 0 none Sql.firstRow) = some first := ⟨_, rfl⟩
  obtain ⟨s, ran, unflagged, telegrams, lastGa⟩ :
    ∃ s, run (Upgraded.step sampleReals Sql.sampleEngine.tzdb) first [storeSample] = some s ∧
      s.timestampsUtc = false ∧ s.db.telegrams.map (·.timestamp) = [7140000000, 0] ∧
      s.db.lastGa.map (·.timestamp) = [7140000000] := by
    cases upgraded
    exact ⟨_, rfl, rfl, rfl, rfl⟩
  obtain ⟨s', converted⟩ : ∃ s', s.migrate ahead = some s' :=
    migrate_returns (in_calendar telegrams (by decide)) (in_calendar lastGa (by decide))
  have flagged := (migrate_telegrams ahead_regular unflagged converted).2.2.1
  have twice : run (Upgraded.step sampleReals Sql.sampleEngine.tzdb) s [.convert ahead, .convert ahead] = some s' :=
    run_cons.mpr ⟨s', converted, run_cons.mpr ⟨s', if_pos flagged, rfl⟩⟩
  have orderly : Orderly ahead minuteBefore 0 := by
    refine ⟨fun row mem row' mem' _ => ?_, fun row mem => ?_⟩
    · rw [List.mem_singleton.mp mem, List.mem_singleton.mp mem']
    · rw [List.mem_singleton.mp mem]
      decide
  have rows : minuteBefore.telegrams ≠ [] := List.cons_ne_nil _ _
  have converts : ∀ event ∈ [UpgradeEvent.convert ahead, .convert ahead], Converts ahead event := by
    simp [Converts]
  have separated := orderly_separated orderly rows upgraded sample_deferred ran
  exact ⟨first, s, s', upgraded, ran, twice, (deferred_conversion_iff ahead_regular rows upgraded sample_deferred ran
    (List.cons_ne_nil _ _) converts twice).mpr separated⟩

/-- Ten minutes before the clocks were set back, when ten minutes later the
upgrade found an earlier reading. -/
def repeatedHour : Db := legacyDb [legacyRow 1 6600000000] (by decide)

private theorem unconverted_in_repeated_hour :
    ∃ s s', (Upgraded.of repeatedHour false).step sampleReals Sql.sampleEngine.tzdb
        (.start 600000000 none Sql.firstRow) = some s ∧
      run (Upgraded.step sampleReals Sql.sampleEngine.tzdb) s [.convert setBackAtEpoch] = some s' ∧
      s'.timestampsUtc = true ∧ ¬ ConvertedOnce setBackAtEpoch repeatedHour s' := by
  have rows : repeatedHour.telegrams ≠ [] := List.cons_ne_nil _ _
  obtain ⟨s, upgraded, telegrams, lastGa, stands⟩ :
      ∃ s, (Upgraded.of repeatedHour false).step sampleReals Sql.sampleEngine.tzdb
          (.start 600000000 none Sql.firstRow) = some s ∧ s.db.telegrams = [legacyRow 1 6600000000] ∧
        s.db.lastGa.map (·.timestamp) = [6600000000] ∧ MarkerStands repeatedHour s := ⟨_, rfl, rfl, rfl, le_rfl⟩
  have mixed := mixed_of rows upgraded
  have written := (first_start rows upgraded).2
  have timestamps : s.db.telegrams.map (·.timestamp) = [6600000000] := telegrams ▸ rfl
  obtain ⟨s', converted⟩ : ∃ s', s.migrate setBackAtEpoch = some s' :=
    migrate_returns (in_calendar timestamps (by decide)) (in_calendar lastGa (by decide))
  have once : run (Upgraded.step sampleReals Sql.sampleEngine.tzdb) s [.convert setBackAtEpoch] = some s' :=
    run_cons.mpr ⟨s', converted, rfl⟩
  have flagged := (migrate_telegrams setBack_regular mixed.unflagged converted).2.2.1
  refine ⟨s, s', upgraded, once, flagged, fun converted => ?_⟩
  have separated := (mixed.conversion_iff setBack_regular (List.cons_ne_nil _ _) (by simp [Converts]) once).mp converted
  rcases separated.legacy stands (legacyRow 1 6600000000) (telegrams ▸ List.mem_singleton_self _)
    (congrFun written _) with
    below | utc
  · exact absurd below (by decide)
  · exact absurd utc (by decide)

/-- Two rows, the later of which reads earlier. -/
def outOfOrder : Db := legacyDb [legacyRow 1 7140000000, legacyRow 2 3600000000] (by decide)

/-- The later row is evicted, and its rowid given to a new telegram. -/
private theorem converted_in_reused_row :
    ∃ first s s', (Upgraded.of outOfOrder false).step sampleReals Sql.sampleEngine.tzdb
        (.start 0 none Sql.firstRow) = some first ∧
      Along (Upgraded.step sampleReals Sql.sampleEngine.tzdb)
        (Deferred Sql.sampleEngine.tzdb 0) first [.evict 5400000000, storeSample] ∧
      run (Upgraded.step sampleReals Sql.sampleEngine.tzdb) first [.evict 5400000000, storeSample] = some s ∧
      run (Upgraded.step sampleReals Sql.sampleEngine.tzdb) s [.convert ahead] = some s' ∧
      ¬ ConvertedOnce ahead outOfOrder s' := by
  have rows : outOfOrder.telegrams ≠ [] := List.cons_ne_nil _ _
  obtain ⟨first, upgraded, left⟩ :
      ∃ first, (Upgraded.of outOfOrder false).step sampleReals Sql.sampleEngine.tzdb
          (.start 0 none Sql.firstRow) = some first ∧
        (evictOlderThan first.db 5400000000).telegrams = [legacyRow 1 7140000000] := ⟨_, rfl, rfl⟩
  have deferred : Along (Upgraded.step sampleReals Sql.sampleEngine.tzdb) (Deferred Sql.sampleEngine.tzdb 0) first
      [.evict 5400000000, storeSample] := by
    refine ⟨?_, fun _ _ => sample_deferred⟩
    rw [Deferred, left]
    exact List.cons_ne_nil _ _
  obtain ⟨s, ran, timestamps, lastGa, stands, row, mem, rowid, timestamp, written⟩ :
      ∃ s, run (Upgraded.step sampleReals Sql.sampleEngine.tzdb) first [.evict 5400000000, storeSample] = some s ∧
        s.db.telegrams.map (·.timestamp) = [7140000000, 0] ∧ s.db.lastGa.map (·.timestamp) = [7140000000] ∧
        maxRowidOf s.db = 2 ∧ ∃ row ∈ s.db.telegrams, row.rowid = 2 ∧ row.timestamp = 0 ∧ s.written 2 = some 0 := by
    cases upgraded
    exact ⟨_, rfl, rfl, rfl, rfl, _, List.mem_cons_of_mem _ List.mem_cons_self, rfl, rfl, rfl⟩
  obtain ⟨s', converted⟩ : ∃ s', s.migrate ahead = some s' :=
    migrate_returns (in_calendar timestamps (by decide)) (in_calendar lastGa (by decide))
  have once : run (Upgraded.step sampleReals Sql.sampleEngine.tzdb) s [.convert ahead] = some s' :=
    run_cons.mpr ⟨s', converted, rfl⟩
  have mixed := run_mixed (mixed_of rows upgraded) deferred ran
  refine ⟨first, s, s', upgraded, deferred, ran, once, fun converted => ?_⟩
  have separated := (mixed.conversion_iff ahead_regular (List.cons_ne_nil _ _) (by simp [Converts]) once).mp converted
  have reached : MarkerStands outOfOrder s := by
    rw [MarkerStands, stands]
    exact le_rfl
  rcases separated.newer reached row mem (by rw [rowid, written]; exact nofun) with above | late | utc
  · rw [rowid] at above
    exact absurd above (by decide)
  · rw [timestamp] at late
    exact absurd late (by decide)
  · rw [timestamp] at utc
    exact absurd utc (by decide)

/-- A row from the hour that the clocks repeat keeps its local digits, and a
telegram that reuses a rowid is shifted. -/
theorem conversion_confuses_rows :
    (∃ s s', (Upgraded.of repeatedHour false).step sampleReals Sql.sampleEngine.tzdb
        (.start 600000000 none Sql.firstRow) = some s ∧
      run (Upgraded.step sampleReals Sql.sampleEngine.tzdb) s [.convert setBackAtEpoch] = some s' ∧
      s'.timestampsUtc = true ∧ ¬ ConvertedOnce setBackAtEpoch repeatedHour s') ∧
    ∃ first s s', (Upgraded.of outOfOrder false).step sampleReals Sql.sampleEngine.tzdb
        (.start 0 none Sql.firstRow) = some first ∧
      Along (Upgraded.step sampleReals Sql.sampleEngine.tzdb)
        (Deferred Sql.sampleEngine.tzdb 0) first [.evict 5400000000, storeSample] ∧
      run (Upgraded.step sampleReals Sql.sampleEngine.tzdb) first [.evict 5400000000, storeSample] = some s ∧
      run (Upgraded.step sampleReals Sql.sampleEngine.tzdb) s [.convert ahead] = some s' ∧
      ¬ ConvertedOnce ahead outOfOrder s' :=
  ⟨unconverted_in_repeated_hour, converted_in_reused_row⟩

end KnxTelegramStore.Sqlite
