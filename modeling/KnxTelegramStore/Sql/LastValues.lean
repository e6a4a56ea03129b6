import KnxTelegramStore.Lib.Newest
import KnxTelegramStore.Query.Memory
import KnxTelegramStore.Sql.Results

/-!
The last telegram of each group address. `store_many` reduces a batch to the
latest value of every destination and upserts those over the summaries,
`_reconcile_last_ga_telegrams` (`base_sql.py`) rebuilds what is missing of
them at a start, and `MemoryStore` scans its deque. All of them keep the
newest element of each key, so the summaries are those of all stored
telegrams at once (`Summarised`), in whatever batches they came.
-/
namespace KnxTelegramStore
open Newest

/-- A telegram is aware, and each `tzinfo` keeps one offset among the telegrams
of one destination. -/
structure Steady (tzdb : TzDb) (telegrams : List StoredTelegram) : Prop where
  aware : ∀ t ∈ telegrams, t.timestamp.Aware
  offsets : ∀ t ∈ telegrams, ∀ u ∈ telegrams, t.destination = u.destination →
    t.timestamp.tzinfo = u.timestamp.tzinfo → t.timestamp.utcoffset tzdb = u.timestamp.utcoffset tzdb

/-- UTC and its like never change their offset. -/
theorem steady_of_fixed {tzdb : TzDb} {telegrams : List StoredTelegram}
    (fixed : ∀ t ∈ telegrams, ∃ offset, t.timestamp.tzinfo = some (.fixed offset)) : Steady tzdb telegrams := by
  constructor
  · intro t mem
    obtain ⟨offset, tzinfo⟩ := fixed t mem
    rw [DateTime.Aware, tzinfo]
    rfl
  · intro t mem u mem' _ same
    obtain ⟨offset, tzinfo⟩ := fixed t mem
    rw [DateTime.utcoffset, DateTime.utcoffset, ← same, tzinfo]
    rfl

theorem Steady.lt {tzdb : TzDb} {telegrams : List StoredTelegram} {t u : StoredTelegram}
    (steady : Steady tzdb telegrams)
    (mem : t ∈ telegrams) (mem' : u ∈ telegrams) (same : t.destination = u.destination) :
    DateTime.lt? tzdb t.timestamp u.timestamp = some (decide (t.instant tzdb < u.instant tzdb)) :=
  DateTime.lt?_of_offset (steady.aware t mem) (steady.aware u mem') (steady.offsets t mem u mem' same)

theorem Steady.mono {tzdb : TzDb} {some_ telegrams : List StoredTelegram} (steady : Steady tzdb telegrams)
    (part : some_ ⊆ telegrams) : Steady tzdb some_ :=
  ⟨fun t mem => steady.aware t (part mem), fun t mem u mem' => steady.offsets t (part mem) u (part mem')⟩

/-- The first telegram of each destination with the greatest instant. -/
def lastValues (tzdb : TzDb) (telegrams : List StoredTelegram) : List StoredTelegram :=
  absorbAll StoredTelegram.destination (StoredTelegram.instant tzdb) [] telegrams

/-! ## `MemoryStore` -/

/-- One turn of the scan. -/
def MemoryStore.seen (tzdb : TzDb) (lastGa : List StoredTelegram) (telegram : StoredTelegram) :
    Option (List StoredTelegram) :=
  match lastGa.find? (·.destination = telegram.destination) with
  | none => some (lastGa ++ [telegram])
  | some current => do
    let newer ← DateTime.lt? tzdb current.timestamp telegram.timestamp
    return if newer then lastGa.map fun kept => if kept.destination = telegram.destination then telegram else kept
      else lastGa

/-- `MemoryStore.get_last_unique_telegrams`; `none` is the `TypeError` of a
naive timestamp among aware ones. -/
def MemoryStore.getLastUniqueTelegrams (tzdb : TzDb) (store : MemoryStore) : Option (List StoredTelegram) :=
  store.telegrams.foldlM (seen tzdb) []

theorem MemoryStore.scanned {tzdb : TzDb} {store : MemoryStore} (steady : Steady tzdb store.telegrams) :
    store.getLastUniqueTelegrams tzdb = some (lastValues tzdb store.telegrams) := by
  refine foldlM_absorb (P := (· ∈ store.telegrams)) ?_ List.nodup_nil (List.forall_mem_nil _) fun _ mem => mem
  intro kept x unique held mem
  refine assign_eq unique (fun fresh => ?_) fun current mem' same found => ?_
  · rw [seen, fresh]
  · rw [seen, found]
    simp [steady.lt (held current mem') mem same]

namespace Sql

variable {engine : Engine} {db db' : Db} {tzdb : TzDb} {values : List (Columns DateTime)}

/-! ## `_reconcile_last_ga_telegrams` -/

/-- `tie_breaker`: which of several rows the database ranks first by the texts
of their columns. -/
structure TieBreaker where
  first : List (Columns ℤ) → Option (Columns ℤ)
  first_mem : ∀ {rows row}, first rows = some row → row ∈ rows

def Db.newerTelegram (db : Db) (summary : Columns ℤ) : Bool :=
  db.telegrams.any fun row => row.destinationId = summary.destinationId ∧ summary.timestamp < row.timestamp

/-- The telegrams that have the latest timestamp of their destination. -/
def Db.candidates (db : Db) : List (Columns ℤ) :=
  (db.telegrams.map TelegramRow.toColumns).filter fun row =>
    db.telegrams.all fun other => other.destinationId = row.destinationId → other.timestamp ≤ row.timestamp

/-- One candidate of each destination, `candidate_rank == 1`. -/
def Db.ranked (db : Db) (tieBreaker : TieBreaker) : List (Columns ℤ) :=
  (db.candidates.map Columns.destinationId).dedup.filterMap fun destinationId =>
    tieBreaker.first (db.candidates.filter (·.destinationId = destinationId))

/-- `ON CONFLICT DO NOTHING`. -/
def insertMissing (summaries : List (Columns ℤ)) (row : Columns ℤ) : List (Columns ℤ) :=
  if row.destinationId ∈ summaries.map Columns.destinationId then summaries else summaries ++ [row]

theorem insertMissing_unique {summaries : List (Columns ℤ)} (unique : (summaries.map Columns.destinationId).Nodup)
    (rows : List (Columns ℤ)) : ((rows.foldl insertMissing summaries).map Columns.destinationId).Nodup := by
  induction rows generalizing summaries with
  | nil => exact unique
  | cons row rows ih =>
    apply ih
    unfold insertMissing
    split
    · exact unique
    · rename_i fresh
      rw [List.map_append]
      exact unique.append (List.nodup_singleton _) (List.disjoint_singleton.mpr fresh)

/-- `_reconcile_last_ga_telegrams`. -/
def Db.reconcile (db : Db) (tieBreaker : TieBreaker) (reconciled : Bool) : Db :=
  if !db.lastGa.isEmpty && reconciled then db
  else
    { db with
      lastGa := (db.ranked tieBreaker).foldl insertMissing (db.lastGa.filter fun summary => !db.newerTelegram summary)
      destinations_unique :=
        insertMissing_unique (db.destinations_unique.sublist (List.filter_sublist.map _)) _ }

/-! ## The summaries of all rows -/

/-- The summaries are the newest rows of each destination, in one go. -/
def Summarised (db : Db) : Prop :=
  db.lastGa = absorbAll Columns.destinationId Columns.timestamp [] (db.telegrams.map TelegramRow.toColumns)

theorem upsert_eq : upsert = absorb Columns.destinationId Columns.timestamp := rfl

/-- Python compares the values of one destination as instants. -/
def Ordered (tzdb : TzDb) (values : List (Columns DateTime)) : Prop :=
  ∀ a ∈ values, ∀ b ∈ values, a.destinationId = b.destinationId →
    DateTime.lt? tzdb a.timestamp b.timestamp = some (decide (a.timestamp.toMicros tzdb < b.timestamp.toMicros tzdb))

theorem latestPerDestination_eq (ordered : Ordered tzdb values) :
    latestPerDestination tzdb values =
      some (absorbAll Columns.destinationId (fun val => val.timestamp.toMicros tzdb) [] values) := by
  refine foldlM_absorb (P := (· ∈ values)) ?_ List.nodup_nil (List.forall_mem_nil _) fun _ mem => mem
  intro kept val unique held mem
  refine assign_eq unique (fun fresh => ?_) fun current mem' same found => ?_
  · rw [keepLatest, fresh]
  · rw [keepLatest, found]
    simp [ordered current (held current mem') val mem same]

/-- A batch whose telegrams are comparable binds comparable values. -/
theorem ordered_of_steady {lookupIds : LookupCache} {lookup : StringLookup} {telegrams : List StoredTelegram}
    (truthful : lookupIds.Truthful lookup) (steady : Steady tzdb telegrams)
    (made : List.Forall₂ (fun t val => valuesOf lookupIds t = some val) telegrams values) : Ordered tzdb values := by
  intro a mem b mem' same
  obtain ⟨t, own, made_t⟩ := forall₂_mem made mem
  obtain ⟨u, own', made_u⟩ := forall₂_mem made mem'
  obtain ⟨labels, timestamp, _⟩ := valuesOf_labels truthful made_t
  obtain ⟨labels', timestamp', _⟩ := valuesOf_labels truthful made_u
  have named := labels.destination
  rw [same] at named
  have destination := congrArg Prod.snd (named.pair_unique labels'.destination)
  have lt := steady.lt own own' destination
  rw [timestamp, timestamp']
  exact lt

/-- Binding keeps destinations, and instants as they compare. -/
theorem bind_agrees : Agree (fun (val : Columns DateTime) row => val.bind engine = some row)
    Columns.destinationId (fun val => val.timestamp.toMicros engine.tzdb) Columns.destinationId Columns.timestamp := by
  have bound : ∀ {val : Columns DateTime} {row}, val.bind engine = some row →
      row.destinationId = val.destinationId ∧ row.timestamp = val.timestamp.toMicros engine.tzdb := by
    intro val row bound
    obtain ⟨_, micros, instant, rfl⟩ := Columns.bind_some bound
    exact ⟨rfl, bindTimestamp_eq instant⟩
  intro val row val' row' first second
  obtain ⟨destination, timestamp⟩ := bound first
  obtain ⟨destination', timestamp'⟩ := bound second
  rw [destination, destination', timestamp, timestamp']
  exact ⟨Iff.rfl, Iff.rfl⟩

/-- A `store_many` absorbs its rows into the summaries. -/
theorem storeMany_absorbs {cache lookupIds : LookupCache} {ids : IdSource} {telegrams : List StoredTelegram}
    {statements : List Statement} (truthful : cache.Truthful db.lookup) (steady : Steady engine.tzdb telegrams)
    (ran : storeMany engine ids cache telegrams db = (statements, some (db', lookupIds))) :
    ∃ rows, db'.telegrams.map TelegramRow.toColumns = db.telegrams.map TelegramRow.toColumns ++ rows ∧
      List.Forall₂ (Stores engine db'.lookup) rows telegrams ∧
      db'.lastGa = absorbAll Columns.destinationId Columns.timestamp db.lastGa rows := by
  have names := truthful_resolve ids truthful telegrams
  obtain ⟨values, rows, latest, summaries, rfl, made, bound, kept, bound', rfl⟩ := storeMany_success ran
  rw [latestPerDestination_eq (ordered_of_steady names steady made)] at kept
  cases kept
  have reduced := mapM_some_iff.mpr (bind_agrees.absorbAll .nil bound)
  cases (mapM_some_iff.mpr bound').symm.trans reduced
  refine ⟨rows, ?_, batch_stores names made bound, absorbAll_absorbAll db.lastGa rows⟩
  show (db.telegrams ++ numbered _ rows).map TelegramRow.toColumns = _
  rw [List.map_append, toColumns_numbered]

theorem Summarised.extend {rows : List (Columns ℤ)} (summarised : Summarised db)
    (inserted : db'.telegrams.map TelegramRow.toColumns = db.telegrams.map TelegramRow.toColumns ++ rows)
    (absorbed : db'.lastGa = absorbAll Columns.destinationId Columns.timestamp db.lastGa rows) : Summarised db' := by
  unfold Summarised at *
  rw [absorbed, inserted, summarised, absorbAll, absorbAll, absorbAll, ← List.foldl_append]

theorem insertMissing_known {rows summaries : List (Columns ℤ)}
    (known : ∀ row ∈ rows, row.destinationId ∈ summaries.map Columns.destinationId) :
    rows.foldl insertMissing summaries = summaries := by
  induction rows with
  | nil => rfl
  | cons row rows ih =>
    rw [List.foldl_cons, insertMissing, if_pos (known row List.mem_cons_self)]
    exact ih fun other mem => known other (List.mem_cons_of_mem _ mem)

theorem mem_ranked {tieBreaker : TieBreaker} {row : Columns ℤ} (mem : row ∈ db.ranked tieBreaker) :
    row ∈ db.telegrams.map TelegramRow.toColumns := by
  obtain ⟨_, _, first⟩ := List.mem_filterMap.mp mem
  exact List.mem_of_mem_filter (List.mem_of_mem_filter (tieBreaker.first_mem first))

theorem mem_insertMissing {rows summaries : List (Columns ℤ)} {row : Columns ℤ}
    (mem : row ∈ rows.foldl insertMissing summaries) : row ∈ summaries ∨ row ∈ rows := by
  induction rows generalizing summaries with
  | nil => exact .inl mem
  | cons first rows ih =>
    rcases ih mem with old | later
    · unfold insertMissing at old
      split at old
      · exact .inl old
      · rcases List.mem_append.mp old with older | own
        · exact .inl older
        · exact .inr (List.mem_singleton.mp own ▸ List.mem_cons_self)
    · exact .inr (List.mem_cons_of_mem _ later)

/-- A summary of a reconcile was one before, or is one of the telegrams. -/
theorem mem_reconcile {tieBreaker : TieBreaker} {reconciled : Bool} {row : Columns ℤ}
    (mem : row ∈ (db.reconcile tieBreaker reconciled).lastGa) :
    row ∈ db.lastGa ∨ row ∈ db.telegrams.map TelegramRow.toColumns := by
  unfold Db.reconcile at mem
  split at mem
  · exact .inl mem
  · exact (mem_insertMissing mem).imp List.mem_of_mem_filter mem_ranked

theorem reconcile_frame (db : Db) (tieBreaker : TieBreaker) (reconciled : Bool) :
    (db.reconcile tieBreaker reconciled).lookup = db.lookup ∧
      (db.reconcile tieBreaker reconciled).telegrams = db.telegrams := by
  unfold Db.reconcile
  split <;> exact ⟨rfl, rfl⟩

/-- A reconcile finds nothing to do. -/
theorem Summarised.reconcile (summarised : Summarised db) (tieBreaker : TieBreaker) (reconciled : Bool) :
    db.reconcile tieBreaker reconciled = db := by
  have winners : ∀ summary ∈ db.lastGa, ∀ row ∈ db.telegrams.map TelegramRow.toColumns,
      row.destinationId = summary.destinationId → row.timestamp ≤ summary.timestamp := by
    intro summary mem row own same
    rw [summarised] at mem
    exact (((mem_newest _ _ _).1 summary).mp mem).le own same
  have kept : db.lastGa.filter (fun summary => !db.newerTelegram summary) = db.lastGa := by
    refine List.filter_eq_self.mpr fun summary mem => ?_
    rw [Bool.not_eq_true', Db.newerTelegram, List.any_eq_false]
    intro row own newer
    obtain ⟨same, late⟩ := of_decide_eq_true newer
    exact absurd late (not_lt.mpr (winners summary mem row.toColumns (List.mem_map_of_mem own) same))
  have known : ∀ row ∈ db.ranked tieBreaker, row.destinationId ∈ db.lastGa.map Columns.destinationId := by
    intro row mem
    rw [summarised]
    exact List.mem_map.mpr ((mem_newest _ _ _).2 row (mem_ranked mem))
  unfold Db.reconcile
  split
  · rfl
  · simp only [kept, insertMissing_known known]

/-! ## Runs with reconciles -/

/-- A store with its metadata flag `last_ga_newest_reconciled`. -/
structure Keeper where
  store : Store := {}
  reconciled : Bool := false

inductive KeeperEvent where
  | store (event : StoreEvent)
  | reconcile (tieBreaker : TieBreaker)

def Keeper.step (engine : Engine) (k : Keeper) : KeeperEvent → Option Keeper
  | .store event => (k.store.step engine event).map fun store => { k with store }
  | .reconcile tieBreaker =>
    some { store := { k.store with db := k.store.db.reconcile tieBreaker k.reconciled }, reconciled := true }

abbrev Keeper.run (engine : Engine) (events : List KeeperEvent) : Option Keeper :=
  EventMachine.run (Keeper.step engine) {} events

/-- Whatever its telegrams are, a store is interned; if Python compares them as
instants, it is summarised as well. -/
structure Keeper.Kept (engine : Engine) (k : Keeper) : Prop where
  interned : Interned engine k.store
  summarised : Steady engine.tzdb k.store.stored → Summarised k.store.db

variable {k k' : Keeper}

theorem Interned.reconcile {s : Store} (interned : Interned engine s) (tieBreaker : TieBreaker) (reconciled : Bool) :
    Interned engine { s with db := s.db.reconcile tieBreaker reconciled } := by
  obtain ⟨lookup, telegrams⟩ := reconcile_frame s.db tieBreaker reconciled
  refine { interned with cache := ?_, tasks := ?_, telegrams := ?_, summaries := fun row mem => ?_ }
  · simpa only [lookup] using interned.cache
  · simpa only [lookup] using interned.tasks
  · simpa only [lookup, telegrams] using interned.telegrams
  · simp only [lookup]
    rcases mem_reconcile mem with old | own
    · exact interned.summaries row old
    · exact forall₂_mem interned.telegrams.flip own

theorem Keeper.Kept.step {event : KeeperEvent} (kept : k.Kept engine) (taken : k.step engine event = some k') :
    k'.Kept engine := by
  cases event with
  | reconcile tieBreaker =>
    cases taken
    refine ⟨kept.interned.reconcile tieBreaker k.reconciled, fun steady => ?_⟩
    have summarised := kept.summarised steady
    show Summarised (k.store.db.reconcile tieBreaker k.reconciled)
    rw [summarised.reconcile]
    exact summarised
  | store event =>
    obtain ⟨s', stepped, rfl⟩ := Option.map_eq_some_iff.mp taken
    refine ⟨kept.interned.step stepped, fun steady => ?_⟩
    cases event with
    | commit task ids =>
      unfold Store.step at stepped
      dsimp only at stepped
      split at stepped
      · rename_i telegrams cache opened
        split at stepped
        · rename_i statements db lookupIds ran
          cases stepped
          have before := kept.summarised (steady.mono (List.subset_append_left _ _))
          obtain ⟨rows, inserted, _, absorbed⟩ := storeMany_absorbs (kept.interned.tasks _ _ opened)
            (steady.mono (List.subset_append_right _ _)) ran
          exact before.extend inserted absorbed
        · cases stepped
      · cases stepped
    | clear =>
      cases stepped
      rfl
    | warm | restart =>
      cases stepped
      exact kept.summarised steady
    | begin task telegrams | rollback task | publish task =>
      unfold Store.step at stepped
      dsimp only at stepped
      split at stepped
      · cases stepped
        exact kept.summarised steady
      · cases stepped

theorem run_kept {events : List KeeperEvent} (ran : Keeper.run engine events = some k) : k.Kept engine := by
  refine EventMachine.run_keeps (fun _ _ _ kept taken => Keeper.Kept.step kept taken) ?_ ran
  refine ⟨?_, fun _ => rfl⟩
  exact ⟨fun _ _ found => (nomatch found), fun _ _ found => (nomatch found), .nil, fun _ mem => (nomatch mem)⟩

/-! ## The last values -/

/-- Rows correspond to their telegrams in destination and instant. -/
theorem stores_agree (engine : Engine) (lookup : StringLookup) :
    Agree (Stores engine lookup) Columns.destinationId Columns.timestamp StoredTelegram.destination
      (StoredTelegram.instant engine.tzdb) := by
  intro row t row' u first second
  refine ⟨⟨fun same => ?_, fun same => ?_⟩, ?_⟩
  · have named := first.labels.destination
    rw [same] at named
    exact congrArg Prod.snd (named.pair_unique second.labels.destination)
  · have named := first.labels.destination
    rw [same] at named
    exact named.unique second.labels.destination
  · rw [first.timestamp, second.timestamp]
    exact Iff.rfl

theorem summaries_read {lookup : StringLookup} {rows : List (Columns ℤ)} {last : List StoredTelegram}
    (stores : List.Forall₂ (Stores engine lookup) rows last) (readable : ∀ t ∈ last, Readable engine t) :
    (rows.flatMap (fetchSummary lookup)).mapM Fetched.read = some (last.map (readBack engine)) := by
  induction stores with
  | nil => rfl
  | @cons row t rows last own _ ih =>
    have first : (Fetched.of { row with rowid := 0 } t).read = _ := read_stores own (readable t List.mem_cons_self)
    rw [List.flatMap_cons, fetchSummary_labels own.labels, List.singleton_append, List.mapM_cons, first,
      ih fun u mem => readable u (List.mem_cons_of_mem _ mem)]
    rfl

/-- Batches stored one after the other, each process started anew. -/
def inBatches (tieBreaker : TieBreaker) (batches : List (List StoredTelegram)) : List KeeperEvent :=
  batches.flatMap fun batch =>
    [.store .restart, .store .warm, .reconcile tieBreaker, .store (.begin 0 batch), .store (.commit 0 .sqlite),
      .store (.publish 0)]

def firstRow : TieBreaker := ⟨List.head?, List.mem_of_head?⟩

/-- A second before the sample. -/
def earlierSample : StoredTelegram := { sampleTelegram with timestamp := .ofMicros (-1000000), source := "1.1.2" }

/-- Clocks that are set back by an hour at 03:00 of the first day. -/
def setBack : TzDb := fun _ wall fold => if wall < 10800000000 ∧ fold = false then 7200000000 else 3600000000

def onSetBack : Engine := ⟨.sqlite, setBack, sampleReals⟩

/-- 02:50 on the first pass. -/
def onFirstPass : StoredTelegram :=
  { sampleTelegram with timestamp := { wall := 10200000000, tzinfo := some (.zone 0) } }

/-- 02:10 on the second pass, twenty minutes later. -/
def onSecondPass : StoredTelegram :=
  { sampleTelegram with timestamp := { wall := 7800000000, fold := true, tzinfo := some (.zone 0) } }

/-- In one batch the digits decide, in two the instants do. -/
private theorem batching_decides :
    ∃ k k', Keeper.run onSetBack (inBatches firstRow [[onFirstPass, onSecondPass]]) = some k ∧
      Keeper.run onSetBack (inBatches firstRow [[onFirstPass], [onSecondPass]]) = some k' ∧
      k.store.stored = k'.store.stored ∧ (∀ t ∈ k.store.stored, t.timestamp.Aware) ∧
      getLastUniqueTelegrams k.store.db = some [readBack onSetBack onFirstPass] ∧
      getLastUniqueTelegrams k'.store.db = some [readBack onSetBack onSecondPass] ∧
      onFirstPass.instant setBack < onSecondPass.instant setBack := by
  have aware : ∀ t ∈ [onFirstPass, onSecondPass], t.timestamp.Aware := by
    simp only [List.mem_cons, List.not_mem_nil, or_false, forall_eq_or_imp, forall_eq]
    exact ⟨rfl, rfl⟩
  exact ⟨_, _, rfl, rfl, rfl, aware, rfl, rfl, by decide⟩

/-- A number that SQLite does not have is read back as missing. -/
private theorem number_lost :
    ∃ k, Keeper.run sampleEngine (inBatches firstRow [[withoutNumber]]) = some k ∧
      ([[withoutNumber]].foldl MemoryStore.storeMany { maxTelegrams := 500 }).getLastUniqueTelegrams sampleEngine.tzdb =
        some [withoutNumber] ∧
      ∃ read, getLastUniqueTelegrams k.store.db = some [read] ∧
        withoutNumber.valueNumeric = some .nan ∧ read.valueNumeric = none :=
  ⟨_, rfl, rfl, _, rfl, rfl, rfl⟩

/-- A float of 16 digits is read back as another one. -/
private theorem float_rounded :
    ∃ k, Keeper.run sampleEngine (inBatches firstRow [[withLongFloat]]) = some k ∧
      ([[withLongFloat]].foldl MemoryStore.storeMany { maxTelegrams := 500 }).getLastUniqueTelegrams sampleEngine.tzdb =
        some [withLongFloat] ∧
      ∃ read, getLastUniqueTelegrams k.store.db = some [read] ∧
        withLongFloat.value = .float (.number longFloat) ∧ read.value = .float (.number longFloatRead) :=
  ⟨_, rfl, rfl, _, rfl, rfl, rfl⟩

end Sql

end KnxTelegramStore
