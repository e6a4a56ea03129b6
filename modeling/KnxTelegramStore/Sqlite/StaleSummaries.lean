import KnxTelegramStore.Sqlite.UtcMigration

/-!
A last value that a deferred conversion leaves alone, because the digits of its
wall clock are not below the boundary. Read as UTC it is in the future, and the
upsert takes only what is newer than the column says: the address recovers with
the first telegram that is later than those digits (`summary_recovers_iff`).
-/
namespace KnxTelegramStore.Sqlite
open EventMachine Newest
open Sql (Db Columns LookupCache TieBreaker Stores StringLookup Fetched storeMany getLastUniqueTelegrams fetchSummary
  readBack innerJoined)

variable {real : Reals} {tzdb : TzDb} {boundary : ℤ} {destination : String} {stale row : Columns ℤ} {s s' : Upgraded}
variable {event : UpgradeEvent} {since : List StoredTelegram} {t : StoredTelegram}

/-- The telegrams of an event. -/
def UpgradeEvent.telegrams : UpgradeEvent → List StoredTelegram
  | .store _ telegrams => telegrams
  | .start .. | .evict _ | .convert _ => []

def storedBy (events : List UpgradeEvent) : List StoredTelegram := events.flatMap UpgradeEvent.telegrams

/-- The summary of the address: still the stale one, or a telegram that is later
than its digits; in either case no telegram is later than the column says. -/
def Current (real : Reals) (tzdb : TzDb) (destination : String) (stale : Columns ℤ) (since : List StoredTelegram)
    (lookup : StringLookup)
    (row : Columns ℤ) : Prop :=
  (row = stale ∨ stale.timestamp < row.timestamp ∧
    ∃ t ∈ since, t.destination = destination ∧ Stores ⟨.sqlite, tzdb, real⟩ lookup row t) ∧
  ∀ t ∈ since, t.destination = destination → t.instant tzdb ≤ row.timestamp

/-- What every state has. -/
structure Waiting (real : Reals) (tzdb : TzDb) (boundary : ℤ) (destination : String) (stale : Columns ℤ)
    (since : List StoredTelegram) (s : Upgraded) : Prop where
  utcFrom : s.utcFrom = some boundary
  reconciled : s.reconciled = true
  truthful : s.cache.Truthful s.db.lookup
  named : s.db.lookup.Names (.destination, destination) stale.destinationId
  summary : ∃ row ∈ s.db.lastGa, row.destinationId = stale.destinationId ∧
    Current real tzdb destination stale since s.db.lookup row

/-! ## What a conversion leaves alone -/

theorem Current.late (current : Current real tzdb destination stale since s.db.lookup row) :
    stale.timestamp ≤ row.timestamp := by
  rcases current.1 with rfl | ⟨later, _⟩
  · exact le_rfl
  · exact le_of_lt later

/-- A summary that is not below the boundary keeps its timestamp. -/
theorem migrate_keeps {zone : Zone} (utcFrom : s.utcFrom = some boundary) (migrated : s.migrate zone = some s') :
    (∃ f, s'.db.lastGa = s.db.lastGa.map f ∧ ∀ row, boundary ≤ row.timestamp → f row = row) ∧
    s'.db.lookup = s.db.lookup ∧
      s'.cache = s.cache ∧ s'.utcFrom = s.utcFrom ∧ s'.reconciled = s.reconciled := by
  unfold Upgraded.migrate at migrated
  split at migrated
  · cases migrated
    exact ⟨⟨id, (List.map_id _).symm, fun _ _ => rfl⟩, rfl, rfl, rfl, rfl⟩
  · simp only [Option.bind_eq_bind, Option.bind_eq_some_iff, Option.pure_def, Option.some.injEq] at migrated
    obtain ⟨telegrams, _, lastGa, _, rfl⟩ := migrated
    refine ⟨⟨_, rfl, fun row late => ?_⟩, rfl, rfl, rfl, rfl⟩
    have outside : (legacyRowScopes zone s).lastGa row = false := by
      unfold legacyRowScopes
      rw [utcFrom]
      dsimp only
      split
      · exact decide_eq_false (not_lt.mpr late)
      · split <;> exact decide_eq_false (not_lt.mpr late)
    have kept : (if (legacyRowScopes zone s).lastGa row then lastGa row.timestamp else row.timestamp) = row.timestamp :=
      if_neg (by simp [outside])
    dsimp only
    rw [kept]

theorem Waiting.migrated {zone : Zone} (waiting : Waiting real tzdb boundary destination stale since s)
    (untouched : boundary ≤ stale.timestamp) (migrated : s.migrate zone = some s') :
    Waiting real tzdb boundary destination stale since s' := by
  obtain ⟨⟨f, lastGa, keeps⟩, lookup, cache, utcFrom, reconciled⟩ := migrate_keeps waiting.utcFrom migrated
  obtain ⟨row, mem, own, current⟩ := waiting.summary
  have kept : row ∈ s'.db.lastGa := lastGa ▸ List.mem_map.mpr ⟨row, mem, keeps row (untouched.trans current.late)⟩
  refine ⟨utcFrom.trans waiting.utcFrom, reconciled.trans waiting.reconciled, ?_, ?_, row, kept, own, ?_⟩
  · rw [lookup, cache]
    exact waiting.truthful
  · rw [lookup]
    exact waiting.named
  · rw [lookup]
    exact current

theorem Waiting.opened (waiting : Waiting real tzdb boundary destination stale since s) (tieBreaker : TieBreaker) :
    Waiting real tzdb boundary destination stale since (s.opened tieBreaker) := by
  obtain ⟨row, mem, own, current⟩ := waiting.summary
  have same : s.db.reconcile tieBreaker s.reconciled = s.db := by
    have rows : s.db.lastGa ≠ [] := List.ne_nil_of_mem mem
    simp [Db.reconcile, waiting.reconciled, rows]
  unfold Upgraded.opened
  rw [same]
  exact ⟨waiting.utcFrom, rfl, truthful_idOf s.db, waiting.named, row, mem, own, current⟩

theorem Waiting.classified (waiting : Waiting real tzdb boundary destination stale since s) (now : ℤ)
    (zone : Option Zone) : s.classify now zone = s := by
  obtain ⟨row, mem, _⟩ := waiting.summary
  have rows : s.db.lastGa ≠ [] := List.ne_nil_of_mem mem
  simp [Upgraded.classify, waiting.utcFrom, rows]

/-! ## The summary after a batch -/

/-- A batch leaves the summary, or puts one of its own telegrams there that is
later. -/
theorem Waiting.stored {ids : Sql.IdSource} {telegrams : List StoredTelegram}
    {statements : List Sql.Statement} {db : Db}
    {lookupIds : LookupCache} (waiting : Waiting real tzdb boundary destination stale since s)
    (steady : Steady tzdb telegrams)
    (ran : storeMany ⟨.sqlite, tzdb, real⟩ ids s.cache telegrams s.db = (statements, some (db, lookupIds))) :
    ∃ row ∈ db.lastGa, row.destinationId = stale.destinationId ∧
      Current real tzdb destination stale (since ++ telegrams) db.lookup row := by
  have grows := (Sql.storeMany_stored waiting.truthful ran).grows
  obtain ⟨rows, _, stores, absorbed⟩ := Sql.storeMany_absorbs waiting.truthful steady ran
  obtain ⟨row, mem, own, stands, newest⟩ := waiting.summary
  have unique : (s.db.lastGa.map Columns.destinationId).Nodup := s.db.destinations_unique
  have named : db.lookup.Names (.destination, destination) stale.destinationId := grows.names waiting.named
  obtain ⟨next, held, same, later⟩ : ∃ next ∈ absorbAll Columns.destinationId Columns.timestamp s.db.lastGa rows,
      next.destinationId = row.destinationId ∧ row.timestamp ≤ next.timestamp :=
    absorbAll_dominates s.db.lastGa rows row (List.mem_append_left _ mem)
  refine ⟨next, absorbed ▸ held, same.trans own, ?_, fun t mem' address => ?_⟩
  · rcases (mem_absorbAll unique rows next).mp held with ⟨before, _⟩ | ⟨wins, newer⟩
    · cases List.inj_on_of_nodup_map unique before mem same
      refine stands.imp id fun ⟨late, t, since_, address, stored⟩ => ?_
      exact ⟨late, t, List.mem_append_left _ since_, address, stored.grows grows⟩
    · obtain ⟨t, mem', stored⟩ := Sql.forall₂_mem stores.flip wins.mem
      have address := named.pair_unique (same.trans own ▸ stored.labels.destination)
      have late := Current.late (s := s) ⟨stands, newest⟩
      exact .inr ⟨lt_of_le_of_lt late (newer row mem same.symm), t, List.mem_append_right _ mem',
        (congrArg Prod.snd address).symm, stored⟩
  · rcases List.mem_append.mp mem' with old | new
    · exact (newest t old address).trans later
    · obtain ⟨own', inserted, stored⟩ := Sql.forall₂_mem stores new
      have destinationId : own'.destinationId = stale.destinationId := by
        have label := stored.labels.destination
        rw [address] at label
        exact label.unique named
      obtain ⟨top, held', same', latest⟩ : ∃ top ∈ absorbAll Columns.destinationId Columns.timestamp s.db.lastGa rows,
          top.destinationId = own'.destinationId ∧ own'.timestamp ≤ top.timestamp :=
        absorbAll_dominates s.db.lastGa rows own' (List.mem_append_right _ inserted)
      have equal := (same'.trans destinationId).trans (same.trans own).symm
      cases List.inj_on_of_nodup_map (absorbAll_unique unique rows) held' held equal
      exact le_of_eq_of_le stored.timestamp.symm latest

theorem Waiting.step (waiting : Waiting real tzdb boundary destination stale since s)
    (untouched : boundary ≤ stale.timestamp)
    (steady : Steady tzdb event.telegrams) (taken : s.step real tzdb event = some s') :
    Waiting real tzdb boundary destination stale (since ++ event.telegrams) s' := by
  cases event with
  | start now zone tieBreaker =>
    rw [UpgradeEvent.telegrams, List.append_nil]
    cases zone with
    | none =>
      cases taken
      rw [waiting.classified]
      exact waiting.opened tieBreaker
    | some source =>
      simp only [Upgraded.step, waiting.classified] at taken
      obtain ⟨migrated, made, rfl⟩ := Option.map_eq_some_iff.mp taken
      exact (waiting.migrated untouched made).opened tieBreaker
  | store ids telegrams =>
    simp only [Upgraded.step] at taken
    split at taken
    · rename_i empty
      cases taken
      rwa [UpgradeEvent.telegrams, List.isEmpty_iff.mp empty, List.append_nil]
    · split at taken
      · cases taken
      · rename_i statements db lookupIds ran
        cases taken
        have stored := Sql.storeMany_stored waiting.truthful ran
        exact ⟨waiting.utcFrom, waiting.reconciled, (waiting.truthful.grows stored.grows).update stored.truthful,
          stored.grows.names waiting.named, waiting.stored steady ran⟩
  | evict cutoff =>
    rw [UpgradeEvent.telegrams, List.append_nil]
    cases taken
    exact ⟨waiting.utcFrom, waiting.reconciled, waiting.truthful, waiting.named, waiting.summary⟩
  | convert zone =>
    rw [UpgradeEvent.telegrams, List.append_nil]
    exact waiting.migrated untouched taken

theorem run_waiting {events : List UpgradeEvent} (waiting : Waiting real tzdb boundary destination stale since s)
    (untouched : boundary ≤ stale.timestamp) (steady : Steady tzdb (storedBy events))
    (ran : run (Upgraded.step real tzdb) s events = some s') :
    Waiting real tzdb boundary destination stale (since ++ storedBy events) s' := by
  induction events generalizing s since with
  | nil =>
    cases ran
    rwa [storedBy, List.flatMap_nil, List.append_nil]
  | cons event events ih =>
    obtain ⟨next, taken, later⟩ := run_cons.mp ran
    have first := waiting.step untouched (steady.mono (List.subset_append_left _ _)) taken
    have last := ih first (steady.mono (List.subset_append_right _ _)) later
    rwa [List.append_assoc] at last

/-! ## What is read -/

theorem mem_lastUnique {db : Db} {result : List StoredTelegram} (read : getLastUniqueTelegrams db = some result)
    {r : StoredTelegram} :
    r ∈ result ↔ ∃ row ∈ db.lastGa, some r ∈ (fetchSummary db.lookup row).map Fetched.read := by
  have related := Sql.mapM_some_iff.mp read
  constructor
  · intro mem
    obtain ⟨fetched, mem', made⟩ := Sql.forall₂_mem related mem
    obtain ⟨row, own, joined⟩ := List.mem_flatMap.mp mem'
    exact ⟨row, own, List.mem_map.mpr ⟨fetched, joined, made⟩⟩
  · rintro ⟨row, own, mem⟩
    obtain ⟨fetched, joined, made⟩ := List.mem_map.mp mem
    obtain ⟨r', mem', made'⟩ := Sql.forall₂_mem related.flip (List.mem_flatMap.mpr ⟨row, own, joined⟩)
    cases made.symm.trans made'
    exact mem'

theorem innerJoined_mem {lookup : StringLookup} {category : Sql.Category} {id : ℕ} {value : String}
    (mem : value ∈ innerJoined lookup category id) : lookup.Names (category, value) id := by
  obtain ⟨partner, own, rfl⟩ := List.mem_map.mp mem
  obtain ⟨held, on⟩ := List.mem_filter.mp own
  obtain ⟨same, rfl⟩ := Sql.holds_onLookup.mp (of_decide_eq_true on)
  cases same
  exact held

theorem microsToDatetime_eq {value : ℤ} {d : DateTime} (read : DateTime.microsToDatetime value = some d) :
    d = .ofMicros value := by
  unfold DateTime.microsToDatetime at read
  split at read
  · exact (Option.some.inj read).symm
  · cases read

/-- A summary that is read has its address and its timestamp. -/
theorem summary_read {lookup : StringLookup} {r : StoredTelegram}
    (mem : some r ∈ (fetchSummary lookup row).map Fetched.read) :
    lookup.Names (.destination, r.destination) row.destinationId ∧ r.timestamp = .ofMicros row.timestamp := by
  obtain ⟨fetched, joined, made⟩ := List.mem_map.mp mem
  simp only [fetchSummary, List.bind_eq_flatMap, List.mem_flatMap, List.pure_def, List.mem_singleton] at joined
  obtain ⟨source, _, address, own, telegramtype, _, direction, _, sourceName, _, destinationName, _, rfl⟩ := joined
  obtain ⟨timestamp, instant, made⟩ := Option.bind_eq_some_iff.mp made
  cases made
  exact ⟨innerJoined_mem own, microsToDatetime_eq instant⟩

/-- Of the address, the telegram or one that is no earlier. -/
def Recovered (real : Reals) (tzdb : TzDb) (destination : String) (since : List StoredTelegram) (t : StoredTelegram)
    (result : List StoredTelegram) : Prop :=
  ∃ u ∈ since, u.destination = destination ∧ t.instant tzdb ≤ u.instant tzdb ∧ readBack ⟨.sqlite, tzdb, real⟩ u ∈ result

/-- The stale summary happens to be the telegram. -/
def Equals (real : Reals) (tzdb : TzDb) (lookup : StringLookup) (stale : Columns ℤ) (u : StoredTelegram) : Prop :=
  u.instant tzdb = stale.timestamp ∧
    some (readBack ⟨.sqlite, tzdb, real⟩ u) ∈ (fetchSummary lookup stale).map Fetched.read

/-- A summary that is not the stale one is a telegram, and no telegram is later. -/
theorem Waiting.recovers {result : List StoredTelegram} (waiting : Waiting real tzdb boundary destination stale since s)
    (read : getLastUniqueTelegrams s.db = some result) (mem : t ∈ since) (address : t.destination = destination)
    (replaced : stale ∉ s.db.lastGa) : Recovered real tzdb destination since t result := by
  obtain ⟨row, held, _, rfl | ⟨_, u, own, address', stored⟩, newest⟩ := waiting.summary
  · exact absurd held replaced
  · have joined := Sql.fetchSummary_labels stored.labels
    have fetched : Fetched.of { row with rowid := 0 } u ∈ s.db.lastGa.flatMap (fetchSummary s.db.lookup) :=
      List.mem_flatMap.mpr ⟨row, held, joined ▸ List.mem_singleton_self _⟩
    obtain ⟨r, mem', made⟩ := Sql.forall₂_mem (Sql.mapM_some_iff.mp read).flip fetched
    obtain ⟨timestamp, instant, _⟩ := Option.bind_eq_some_iff.mp made
    have same : row.timestamp = u.instant tzdb := stored.timestamp
    have readable : Sql.Readable ⟨.sqlite, tzdb, real⟩ u := by
      have converted : DateTime.microsToDatetime (u.instant tzdb) = some timestamp := same ▸ instant
      rwa [microsToDatetime_eq converted] at converted
    cases made.symm.trans (Sql.read_stores stored readable)
    exact ⟨u, own, address', same ▸ newest t mem address, mem'⟩

/-- The address recovers if its summary has been replaced, or happens to be the
telegram. -/
theorem Waiting.recovered_iff {result : List StoredTelegram}
    (waiting : Waiting real tzdb boundary destination stale since s)
    (read : getLastUniqueTelegrams s.db = some result) (mem : t ∈ since) (address : t.destination = destination) :
    Recovered real tzdb destination since t result ↔
      ∃ u ∈ since, u.destination = destination ∧
        (stale.timestamp < u.instant tzdb ∨ Equals real tzdb s.db.lookup stale u) := by
  have unique : (s.db.lastGa.map Columns.destinationId).Nodup := s.db.destinations_unique
  obtain ⟨row, held, own, current⟩ := waiting.summary
  constructor
  · rintro ⟨u, mem', address', returned⟩
    obtain ⟨row', held', own'⟩ := (mem_lastUnique read).mp returned.2
    obtain ⟨named, timestamp⟩ := summary_read own'
    have label : s.db.lookup.Names (.destination, destination) row'.destinationId := address' ▸ named
    cases List.inj_on_of_nodup_map unique held' held ((label.unique waiting.named).trans own.symm)
    rcases current.1 with rfl | ⟨late, u', since_, address'', stored⟩
    · have instant : u.instant tzdb = row.timestamp := by
        have same := congrArg (DateTime.toMicros tzdb) timestamp
        rw [Sql.readBack, DateTime.toMicros_ofMicros, DateTime.toMicros_ofMicros] at same
        exact same
      exact ⟨u, mem', address', .inr ⟨instant, own'⟩⟩
    · have instant : row.timestamp = u'.instant tzdb := stored.timestamp
      exact ⟨u', since_, address'', .inl (instant ▸ late)⟩
  · rintro ⟨u, mem', address', either⟩
    by_cases replaced : stale ∈ s.db.lastGa
    · cases List.inj_on_of_nodup_map unique replaced held own.symm
      rcases either with late | ⟨instant, reads⟩
      · exact absurd late (not_lt.mpr (current.2 u mem' address'))
      · exact ⟨u, mem', address', instant ▸ current.2 t mem address, (mem_lastUnique read).mpr ⟨stale, held, reads⟩⟩
    · exact waiting.recovers read mem address replaced

/-- The first start leaves a summary waiting. -/
theorem waiting_of {origin : Db} {reconciled : Bool} {tieBreaker : TieBreaker}
    (upgraded : (Upgraded.of origin reconciled).step real tzdb (.start boundary none tieBreaker) = some s)
    (held : stale ∈ s.db.lastGa) (named : s.db.lookup.Names (.destination, destination) stale.destinationId) :
    Waiting real tzdb boundary destination stale [] s := by
  have opened := (Option.some.inj upgraded).symm
  have rows : ¬ (origin.telegrams = [] ∧ origin.lastGa = []) := by
    rintro ⟨telegrams, lastGa⟩
    have classified : ((Upgraded.of origin reconciled).classify boundary none).db = origin := by
      simp [Upgraded.classify, Upgraded.of, telegrams, lastGa]
    rw [opened, Upgraded.opened, classified] at held
    rcases Sql.mem_reconcile held with old | own
    · rw [lastGa] at old
      cases old
    · rw [telegrams] at own
      cases own
  have classified : (Upgraded.of origin reconciled).classify boundary none =
      { Upgraded.of origin reconciled with utcFrom := some boundary, legacyMaxRowid := some (maxRowidOf origin) } := by
    unfold Upgraded.classify Upgraded.of
    simp [rows]
  rw [classified] at opened
  have truthful : s.cache.Truthful s.db.lookup := opened ▸ truthful_opened _ tieBreaker
  have utcFrom : s.utcFrom = some boundary := congrArg Upgraded.utcFrom opened
  have reconciled' : s.reconciled = true := congrArg Upgraded.reconciled opened
  exact ⟨utcFrom, reconciled', truthful, named, stale, held, rfl, .inl rfl, List.forall_mem_nil _⟩

/-- A conversion with no summary below the boundary does not change what is
read. -/
theorem last_values_kept {zone : Zone} (utcFrom : s.utcFrom = some boundary)
    (late : ∀ row ∈ s.db.lastGa, boundary ≤ row.timestamp) (migrated : s.migrate zone = some s') :
    getLastUniqueTelegrams s'.db = getLastUniqueTelegrams s.db := by
  obtain ⟨⟨f, lastGa, keeps⟩, lookup, _⟩ := migrate_keeps utcFrom migrated
  have same : s'.db.lastGa = s.db.lastGa :=
    lastGa.trans ((List.map_congr_left fun row mem => keeps row (late row mem)).trans (List.map_id _))
  rw [getLastUniqueTelegrams, getLastUniqueTelegrams, same, lookup]

/-! ## A summary of a minute before the upgrade -/

/-- Read as UTC, it is two hours later. -/
def minuteSummary : Columns ℤ := (legacyRow 1 7140000000).toColumns

/-- Three hours later. -/
def laterSample : StoredTelegram := { Sql.sampleTelegram with timestamp := .ofMicros 10800000000 }

def storeThenConvert (telegram : StoredTelegram) : List UpgradeEvent := [.store .sqlite [telegram], .convert ahead]

private theorem conversion_follows {first : Upgraded} {telegram : StoredTelegram} {result : List StoredTelegram}
    (timestamps timestamps' : List ℤ)
    (stored : ∃ s, first.step sampleReals Sql.sampleEngine.tzdb (.store .sqlite [telegram]) = some s ∧
      s.utcFrom = some 0 ∧
      s.db.telegrams.map (·.timestamp) = timestamps ∧ s.db.lastGa.map (·.timestamp) = timestamps' ∧
      getLastUniqueTelegrams s.db = some result)
    (calendar : ∀ timestamp ∈ timestamps, DateTime.minWall ≤ timestamp ∧ timestamp + 2 * hour ≤ DateTime.maxWall)
    (calendar' : ∀ timestamp ∈ timestamps', DateTime.minWall ≤ timestamp ∧ timestamp + 2 * hour ≤ DateTime.maxWall)
    (late : ∀ timestamp ∈ timestamps', 0 ≤ timestamp) :
    ∃ s, run (Upgraded.step sampleReals Sql.sampleEngine.tzdb) first (storeThenConvert telegram) = some s ∧
      getLastUniqueTelegrams s.db = some result := by
  obtain ⟨s, taken, utcFrom, telegrams, lastGa, read⟩ := stored
  obtain ⟨s', converted⟩ : ∃ s', s.migrate ahead = some s' :=
    migrate_returns (in_calendar telegrams calendar) (in_calendar lastGa calendar')
  refine ⟨s', run_cons.mpr ⟨s, taken, run_cons.mpr ⟨s', converted, rfl⟩⟩, ?_⟩
  exact (last_values_kept utcFrom (timestamps_satisfy lastGa late) converted).trans read

end KnxTelegramStore.Sqlite
