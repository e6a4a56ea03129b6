import KnxTelegramStore.Lib.Runs
import KnxTelegramStore.Sql.Query

/-!
Interning over the runs of a SQL store. `Stores` says that a row was written
from a telegram and that its ids still resolve to that telegram's strings.
`Interned` says so of every row of both tables, and that neither the cache nor
a transaction under way knows an id that is not committed.
-/
namespace KnxTelegramStore.Sql
open Relational Paging

variable {engine : Engine} {lookup lookup' : StringLookup} {pair : Pair} {id : ℕ} {ids : IdSource}
variable {cache : LookupCache} {telegrams : List StoredTelegram} {t : StoredTelegram} {db db' : Db}

/-! ## Ids once given stay -/

/-- `lookup'` has every row of `lookup`. -/
def StringLookup.Grows (lookup lookup' : StringLookup) : Prop := ∀ row ∈ lookup.rows, row ∈ lookup'.rows

theorem StringLookup.Grows.names (grows : lookup.Grows lookup') (named : lookup.Names pair id) :
    lookup'.Names pair id := grows _ named

theorem grows_insertOrIgnore (ids : IdSource) (lookup : StringLookup) (pair : Pair) :
    lookup.Grows (lookup.insertOrIgnore ids pair) := by
  intro row mem
  unfold StringLookup.insertOrIgnore
  split
  · exact mem
  · exact List.mem_append_left _ mem

private theorem grows_foldl (ids : IdSource) (missing : List Pair) (lookup : StringLookup) :
    lookup.Grows (missing.foldl (StringLookup.insertOrIgnore ids) lookup) := by
  induction missing generalizing lookup with
  | nil => exact fun _ mem => mem
  | cons pair missing ih => exact fun row mem => ih _ row (grows_insertOrIgnore ids lookup pair row mem)

theorem grows_insertAll (ids : IdSource) (missing : List Pair) (lookup : StringLookup) :
    lookup.Grows (lookup.insertAll ids missing) := grows_foldl ids _ lookup

theorem named_insertOrIgnore (ids : IdSource) (lookup : StringLookup) (pair : Pair) :
    ∃ id, (lookup.insertOrIgnore ids pair).Names pair id := by
  unfold StringLookup.insertOrIgnore
  split
  · rename_i known
    obtain ⟨row, mem, rfl⟩ := List.mem_map.mp known
    exact ⟨row.id, StringLookup.names_of_mem mem⟩
  · exact ⟨ids.next lookup, List.mem_append_right _ (List.mem_singleton_self _)⟩

theorem named_insertAll (ids : IdSource) {missing : List Pair} (lookup : StringLookup) (mem : pair ∈ missing) :
    ∃ id, (lookup.insertAll ids missing).Names pair id := by
  unfold StringLookup.insertAll
  replace mem := (ids.order_perm missing).mem_iff.mpr mem
  generalize ids.order missing = missing at mem
  induction missing generalizing lookup with
  | nil => simp at mem
  | cons first missing ih =>
    rcases List.mem_cons.mp mem with rfl | later
    · obtain ⟨id, named⟩ := named_insertOrIgnore ids lookup pair
      exact ⟨id, (grows_foldl ids missing _).names named⟩
    · exact ih _ later

/-! ## What a transaction resolves -/

/-- Every entry names a committed row. -/
def LookupCache.Truthful (cache : LookupCache) (lookup : StringLookup) : Prop :=
  ∀ pair id, cache pair = some id → lookup.Names pair id

theorem LookupCache.Truthful.grows (truthful : cache.Truthful lookup) (grows : lookup.Grows lookup') :
    cache.Truthful lookup' := fun pair id found => grows.names (truthful pair id found)

theorem truthful_resolve (ids : IdSource) (truthful : cache.Truthful lookup) (telegrams : List StoredTelegram) :
    (resolve cache (lookup.insertAll ids (toResolve cache telegrams)) telegrams).Truthful
      (lookup.insertAll ids (toResolve cache telegrams)) := by
  intro pair id found
  unfold resolve at found
  split at found
  · cases cached : cache pair with
    | some known =>
      rw [cached] at found
      cases found
      exact (grows_insertAll ids _ lookup).names (truthful pair _ cached)
    | none =>
      rw [cached] at found
      exact StringLookup.idOf_eq_some.mp found
  · cases found

/-- No pair of the batch is left without an id. -/
theorem resolve_some (ids : IdSource) (lookup : StringLookup) (mem : t ∈ telegrams) (own : pair ∈ pairsOf t) :
    ∃ id, resolve cache (lookup.insertAll ids (toResolve cache telegrams)) telegrams pair = some id := by
  have asked : pair ∈ pairs telegrams := List.mem_dedup.mpr (List.mem_flatMap.mpr ⟨t, mem, own⟩)
  unfold resolve
  rw [if_pos asked]
  cases cached : cache pair with
  | some known => exact ⟨known, rfl⟩
  | none =>
    have missing : pair ∈ toResolve cache telegrams := List.mem_filter.mpr ⟨asked, by simp [cached]⟩
    obtain ⟨id, named⟩ := named_insertAll ids lookup missing
    exact ⟨id, StringLookup.idOf_eq_some.mpr named⟩

/-! ## A row and the telegram it was written from -/

/-- The ids of a row resolve, each under its own category, to the strings of
the telegram. -/
structure Labels {τ : Type} (lookup : StringLookup) (row : Columns τ) (t : StoredTelegram) : Prop where
  source : lookup.Names (.source, t.source) row.sourceId
  destination : lookup.Names (.destination, t.destination) row.destinationId
  telegramtype : lookup.Names (.telegramtype, t.telegramtype) row.telegramtypeId
  direction : lookup.Names (.direction, t.direction) row.directionId
  sourceName : ∃ id, row.sourceNameId = some id ∧ lookup.Names (.sourceName, t.sourceName) id
  destinationName : ∃ id, row.destinationNameId = some id ∧ lookup.Names (.destinationName, t.destinationName) id

/-- A row written from a telegram. -/
structure Stores (engine : Engine) (lookup : StringLookup) (row : Columns ℤ) (t : StoredTelegram) : Prop where
  labels : Labels lookup row t
  timestamp : row.timestamp = t.timestamp.toMicros engine.tzdb
  payload : row.payload = t.payload.map (Payload.jsonColumn engine.backend engine.real)
  dptMain : row.dptMain = t.dptMain
  dptSub : row.dptSub = t.dptSub
  value : row.value = t.value.jsonColumn engine.backend engine.real
  valueNumeric : row.valueNumeric = bindDouble engine.backend t.valueNumeric
  rawData : row.rawData = t.rawData
  dataSecure : row.dataSecure = t.dataSecure

theorem Labels.grows {τ : Type} {row : Columns τ} (labels : Labels lookup row t) (grows : lookup.Grows lookup') :
    Labels lookup' row t where
  source := grows.names labels.source
  destination := grows.names labels.destination
  telegramtype := grows.names labels.telegramtype
  direction := grows.names labels.direction
  sourceName := labels.sourceName.imp fun _ named => ⟨named.1, grows.names named.2⟩
  destinationName := labels.destinationName.imp fun _ named => ⟨named.1, grows.names named.2⟩

theorem Stores.grows {row : Columns ℤ} (stores : Stores engine lookup row t) (grows : lookup.Grows lookup') :
    Stores engine lookup' row t :=
  { stores with labels := stores.labels.grows grows }

theorem valuesOf_some {lookupIds : LookupCache} {values : Columns DateTime}
    (made : valuesOf lookupIds t = some values) :
    ∃ sourceId destinationId telegramtypeId directionId sourceNameId destinationNameId,
      lookupIds (.source, t.source) = some sourceId ∧ lookupIds (.destination, t.destination) = some destinationId ∧
      lookupIds (.telegramtype, t.telegramtype) = some telegramtypeId ∧
      lookupIds (.direction, t.direction) = some directionId ∧
      lookupIds (.sourceName, t.sourceName) = some sourceNameId ∧
      lookupIds (.destinationName, t.destinationName) = some destinationNameId ∧
      values = ⟨t.timestamp, sourceId, destinationId, telegramtypeId, directionId, some sourceNameId,
        some destinationNameId, t.payload, t.dptMain, t.dptSub, t.value, t.valueNumeric, t.rawData, t.dataSecure⟩ := by
  simp only [valuesOf, Option.bind_eq_bind, Option.bind_eq_some_iff, Option.pure_def, Option.some.injEq] at made
  obtain ⟨sourceId, source, destinationId, destination, telegramtypeId, telegramtype, directionId, direction,
    sourceNameId, sourceName, destinationNameId, destinationName, rfl⟩ := made
  exact ⟨_, _, _, _, _, _, source, destination, telegramtype, direction, sourceName, destinationName, rfl⟩

/-- The values of one telegram carry its own ids and fields. -/
theorem valuesOf_labels {lookupIds : LookupCache} {values : Columns DateTime}
    (truthful : lookupIds.Truthful lookup) (made : valuesOf lookupIds t = some values) :
    Labels lookup values t ∧ values.timestamp = t.timestamp ∧ values.payload = t.payload ∧
      values.dptMain = t.dptMain ∧ values.dptSub = t.dptSub ∧ values.value = t.value ∧
      values.valueNumeric = t.valueNumeric ∧ values.rawData = t.rawData ∧ values.dataSecure = t.dataSecure := by
  obtain ⟨_, _, _, _, sourceNameId, destinationNameId, source, destination, telegramtype, direction, sourceName,
    destinationName, rfl⟩ := valuesOf_some made
  refine ⟨⟨truthful _ _ source, truthful _ _ destination, truthful _ _ telegramtype, truthful _ _ direction,
    ⟨sourceNameId, rfl, truthful _ _ sourceName⟩, ⟨destinationNameId, rfl, truthful _ _ destinationName⟩⟩, ?_⟩
  exact ⟨rfl, rfl, rfl, rfl, rfl, rfl, rfl, rfl⟩

theorem bindTimestamp_eq {value : DateTime} {micros : ℤ}
    (bound : bindTimestamp engine.backend engine.tzdb value = some micros) : micros = value.toMicros engine.tzdb := by
  unfold bindTimestamp at bound
  split at bound
  · exact (Option.some.inj bound).symm
  · obtain ⟨_, _, same⟩ := Option.map_eq_some_iff.mp bound
    exact same.symm

theorem bind_stores {lookupIds : LookupCache} {values : Columns DateTime} {row : Columns ℤ}
    (truthful : lookupIds.Truthful lookup) (made : valuesOf lookupIds t = some values)
    (bound : values.bind engine = some row) : Stores engine lookup row t := by
  obtain ⟨labels, timestamp, payload, dptMain, dptSub, value, valueNumeric, rawData, dataSecure⟩ :=
    valuesOf_labels truthful made
  obtain ⟨_, micros, instant, rfl⟩ := Columns.bind_some bound
  refine ⟨⟨labels.source, labels.destination, labels.telegramtype, labels.direction, labels.sourceName,
    labels.destinationName⟩, ?_, ?_, dptMain, dptSub, ?_, ?_, rawData, dataSecure⟩
  · rw [← timestamp]
    exact bindTimestamp_eq instant
  · rw [← payload]
  · rw [← value]
  · rw [← valueNumeric]

/-! ## The transaction as a whole -/

theorem mapM_some_iff {α β : Type*} {f : α → Option β} {xs : List α} {ys : List β} :
    xs.mapM f = some ys ↔ List.Forall₂ (fun x y => f x = some y) xs ys := by
  induction xs generalizing ys with
  | nil => simp [eq_comm]
  | cons x xs ih =>
    simp only [List.mapM_cons, Option.bind_eq_bind, Option.bind_eq_some_iff, Option.pure_def, Option.some.injEq,
      List.forall₂_cons_left_iff]
    constructor
    · rintro ⟨y, made, rest, others, rfl⟩
      exact ⟨y, rest, made, ih.mp others, rfl⟩
    · rintro ⟨y, rest, made, others, rfl⟩
      exact ⟨y, made, rest, ih.mpr others, rfl⟩

theorem forall₂_comp {α β γ : Type*} {R : α → β → Prop} {S : β → γ → Prop} {xs : List α} {ys : List β}
    {zs : List γ} (first : List.Forall₂ R xs ys) (second : List.Forall₂ S ys zs) :
    List.Forall₂ (fun x z => ∃ y, R x y ∧ S y z) xs zs := by
  induction first generalizing zs with
  | nil =>
    cases second
    exact .nil
  | cons related _ ih =>
    obtain ⟨z, rest, related', others, rfl⟩ := List.forall₂_cons_left_iff.mp second
    exact .cons ⟨_, related, related'⟩ (ih others)

theorem forall₂_mem {α β : Type*} {R : α → β → Prop} {xs : List α} {ys : List β}
    (related : List.Forall₂ R xs ys) {y : β} (mem : y ∈ ys) : ∃ x ∈ xs, R x y := by
  induction related with
  | nil => simp at mem
  | cons first _ ih =>
    rcases List.mem_cons.mp mem with rfl | later
    · exact ⟨_, List.mem_cons_self, first⟩
    · obtain ⟨x, held, found⟩ := ih later
      exact ⟨x, List.mem_cons_of_mem _ held, found⟩

theorem forall₂_getElem {α β : Type*} {R : α → β → Prop} {xs : List α} {ys : List β} (related : List.Forall₂ R xs ys)
    {i : ℕ} {x : α} (found : xs[i]? = some x) : ∃ y, ys[i]? = some y ∧ R x y := by
  induction related generalizing i with
  | nil => cases found
  | cons first _ ih =>
    cases i with
    | zero =>
      cases found
      exact ⟨_, rfl, first⟩
    | succ i => exact ih found

theorem keepLatest_mem {tzdb : TzDb} {latest latest' : List (Columns DateTime)} {val c : Columns DateTime}
    (kept : keepLatest tzdb latest val = some latest') (mem : c ∈ latest') : c ∈ latest ∨ c = val := by
  unfold keepLatest at kept
  split at kept
  · cases kept
    simpa using mem
  · obtain ⟨newer, _, done⟩ := Option.bind_eq_some_iff.mp kept
    obtain rfl := Option.some.inj done
    split at mem
    · obtain ⟨old, held, rfl⟩ := List.mem_map.mp mem
      split
      · exact .inr rfl
      · exact .inl held
    · exact .inl mem

/-- A turn of the loop over the batch assigns one key. -/
theorem keepLatest_destinations {tzdb : TzDb} {latest' : List (Columns DateTime)} {val : Columns DateTime}
    (kept : keepLatest tzdb latest val = some latest') :
    latest'.map Columns.destinationId =
      if val.destinationId ∈ latest.map Columns.destinationId then latest.map Columns.destinationId
      else latest.map Columns.destinationId ++ [val.destinationId] := by
  unfold keepLatest at kept
  split at kept
  · rename_i absent
    cases kept
    rw [if_neg, List.map_append, List.map_singleton]
    intro mem
    obtain ⟨other, held, same⟩ := List.mem_map.mp mem
    exact List.find?_eq_none.mp absent other held (decide_eq_true same)
  · rename_i current found
    have same : current.destinationId = val.destinationId := by simpa using List.find?_some found
    have known : val.destinationId ∈ latest.map Columns.destinationId := by
      rw [← same]
      exact List.mem_map_of_mem (List.mem_of_find?_eq_some found)
    obtain ⟨newer, _, done⟩ := Option.bind_eq_some_iff.mp kept
    obtain rfl := Option.some.inj done
    rw [if_pos known]
    split
    · rw [List.map_map]
      refine List.map_congr_left fun other _ => ?_
      simp only [Function.comp_apply]
      split
      · rename_i replaced
        exact replaced.symm
      · rfl
    · rfl

theorem latest_subset {tzdb : TzDb} {values latest : List (Columns DateTime)}
    (made : latestPerDestination tzdb values = some latest) {c : Columns DateTime} (mem : c ∈ latest) :
    c ∈ values := by
  have invariant : ∀ (values start : List (Columns DateTime)) {latest},
      values.foldlM (keepLatest tzdb) start = some latest → ∀ c ∈ latest, c ∈ start ∨ c ∈ values := by
    intro values
    induction values with
    | nil =>
      intro start latest made c mem
      cases made
      exact .inl mem
    | cons val values ih =>
      intro start latest made c mem
      obtain ⟨next, kept, later⟩ := Option.bind_eq_some_iff.mp (List.foldlM_cons.symm.trans made)
      rcases ih next later c mem with old | new
      · rcases keepLatest_mem kept old with older | rfl
        · exact .inl older
        · exact .inr List.mem_cons_self
      · exact .inr (List.mem_cons_of_mem _ new)
  simpa using invariant values [] made c mem

theorem mem_foldl_upsert {rows summaries : List (Columns ℤ)} {c : Columns ℤ}
    (mem : c ∈ rows.foldl upsert summaries) : c ∈ summaries ∨ c ∈ rows := by
  induction rows generalizing summaries with
  | nil => exact .inl mem
  | cons row rows ih =>
    rcases ih mem with old | new
    · unfold upsert at old
      split at old
      · obtain ⟨kept, held, rfl⟩ := List.mem_map.mp old
        split
        · exact .inr List.mem_cons_self
        · exact .inl held
      · rcases List.mem_append.mp old with older | last
        · exact .inl older
        · rw [List.mem_singleton.mp last]
          exact .inr List.mem_cons_self
    · exact .inr (List.mem_cons_of_mem _ new)

theorem mem_numbered {first : ℕ} {rows : List (Columns ℤ)} {row : TelegramRow ℤ} (mem : row ∈ numbered first rows) :
    ∃ i, row.rowid = first + i ∧ rows[i]? = some row.toColumns := by
  obtain ⟨⟨columns, i⟩, own, rfl⟩ := List.mem_map.mp mem
  exact ⟨i, rfl, List.mem_zipIdx_iff_getElem?.mp own⟩

theorem toColumns_numbered (first : ℕ) (rows : List (Columns ℤ)) :
    (numbered first rows).map TelegramRow.toColumns = rows := by
  unfold numbered
  rw [List.map_map]
  exact List.zipIdx_map_fst 0 rows

/-- What a `store_many` that succeeds has done. -/
structure Stored (engine : Engine) (db : Db) (telegrams : List StoredTelegram) (db' : Db)
    (lookupIds : LookupCache) : Prop where
  grows : db.lookup.Grows db'.lookup
  truthful : lookupIds.Truthful db'.lookup
  inserted : ∃ rows, db'.telegrams.map TelegramRow.toColumns = db.telegrams.map TelegramRow.toColumns ++ rows ∧
    List.Forall₂ (Stores engine db'.lookup) rows telegrams
  upserted : ∀ row ∈ db'.lastGa, row ∈ db.lastGa ∨ ∃ t ∈ telegrams, Stores engine db'.lookup row t

/-- What a `store_many` that succeeds has gone through. -/
theorem storeMany_success {statements : List Statement} {lookupIds : LookupCache}
    (ran : storeMany engine ids cache telegrams db = (statements, some (db', lookupIds))) :
    ∃ values rows latest summaries,
      lookupIds = resolve cache (db.lookup.insertAll ids (toResolve cache telegrams)) telegrams ∧
      List.Forall₂ (fun t val => valuesOf lookupIds t = some val) telegrams values ∧
      List.Forall₂ (fun val row => val.bind engine = some row) values rows ∧
      latestPerDestination engine.tzdb values = some latest ∧
      List.Forall₂ (fun val row => val.bind engine = some row) latest summaries ∧
      db' = ({ db with lookup := db.lookup.insertAll ids (toResolve cache telegrams) }.insertTelegrams
        rows).upsertLastGa
        summaries := by
  unfold storeMany at ran
  dsimp only at ran
  split at ran
  · cases ran
  rename_i values made
  split at ran
  · cases ran
  rename_i rows bound
  split at ran
  · cases ran
  rename_i latest kept
  obtain ⟨_, done⟩ := Prod.mk.inj ran
  obtain ⟨summaries, bound', same⟩ := Option.map_eq_some_iff.mp done
  obtain ⟨rfl, rfl⟩ := Prod.mk.inj same
  exact ⟨values, rows, latest, summaries, rfl, mapM_some_iff.mp made, mapM_some_iff.mp bound, kept,
    mapM_some_iff.mp bound', rfl⟩

/-- The rows of a batch, each written from its telegram. -/
theorem batch_stores {lookupIds : LookupCache} {values : List (Columns DateTime)} {rows : List (Columns ℤ)}
    (truthful : lookupIds.Truthful lookup)
    (made : List.Forall₂ (fun t val => valuesOf lookupIds t = some val) telegrams values)
    (bound : List.Forall₂ (fun val row => val.bind engine = some row) values rows) :
    List.Forall₂ (Stores engine lookup) rows telegrams := by
  refine List.Forall₂.flip ((forall₂_comp made bound).imp fun t row => ?_)
  rintro ⟨values, made, bound⟩
  exact bind_stores truthful made bound

theorem storeMany_stored {statements : List Statement} {lookupIds : LookupCache}
    (truthful : cache.Truthful db.lookup)
    (ran : storeMany engine ids cache telegrams db = (statements, some (db', lookupIds))) :
    Stored engine db telegrams db' lookupIds := by
  have names := truthful_resolve ids truthful telegrams
  obtain ⟨values, rows, latest, summaries, rfl, made, bound, kept, bound', rfl⟩ := storeMany_success ran
  refine ⟨grows_insertAll ids _ _, names, ⟨rows, ?_, ?_⟩, fun row mem => ?_⟩
  · show (db.telegrams ++ numbered _ rows).map TelegramRow.toColumns = _
    rw [List.map_append, toColumns_numbered]
  · exact batch_stores names made bound
  · rcases mem_foldl_upsert mem with old | new
    · exact .inl old
    · obtain ⟨values, held, bound⟩ := forall₂_mem bound' new
      obtain ⟨t, own, made⟩ := forall₂_mem made (latest_subset kept held)
      exact .inr ⟨t, own, bind_stores names made bound⟩

/-- The telegrams of a batch get the next rowids, one after the other. -/
theorem storeMany_inserts {statements : List Statement} {lookupIds : LookupCache} (truthful : cache.Truthful db.lookup)
    (ran : storeMany engine ids cache telegrams db = (statements, some (db', lookupIds))) :
    ∃ rows, db'.telegrams = db.telegrams ++ numbered db.nextRowid rows ∧
      List.Forall₂ (Stores engine db'.lookup) rows telegrams := by
  have names := truthful_resolve ids truthful telegrams
  obtain ⟨values, rows, _, _, rfl, made, bound, _, _, rfl⟩ := storeMany_success ran
  exact ⟨rows, rfl, batch_stores names made bound⟩

/-! ## Runs of a store -/

/-- A `store_many` under way: its transaction is open, with the cache as
`get_or_create_ids` read it, or has committed and the ids are to be
published. -/
inductive Transaction where
  | open_ (telegrams : List StoredTelegram) (cache : LookupCache)
  | committed (lookupIds : LookupCache)

/-- A SQL store with its `store_many` calls under way. `stored` records the
telegrams of the rows of `telegrams`. -/
structure Store where
  db : Db := {}
  cache : LookupCache := fun _ => none
  tasks : ℕ → Option Transaction := fun _ => none
  stored : List StoredTelegram := []

inductive StoreEvent where
  | begin (task : ℕ) (telegrams : List StoredTelegram)
  | commit (task : ℕ) (ids : IdSource)
  /-- the transaction failed at one of its statements, or in its commit -/
  | rollback (task : ℕ)
  | publish (task : ℕ)
  | clear
  | warm
  /-- a new process: the cache is empty until it is warmed -/
  | restart

/-- `dict.update`. -/
def LookupCache.update (cache resolved : LookupCache) : LookupCache :=
  fun pair => (resolved pair).orElse fun _ => cache pair

/-- `LookupCache.warm`. -/
def LookupCache.warm (cache : LookupCache) (lookup : StringLookup) : LookupCache :=
  cache.update lookup.idOf

/-- `BaseSQLStore.clear`. -/
def Db.clear (db : Db) : Db :=
  { db with telegrams := [], lastGa := [], rowids_unique := by simp, destinations_unique := by simp }

/-- One step. Transactions are isolated: one that commits does so on the
committed tables, and one that is rolled back has left no trace. -/
def Store.step (engine : Engine) (s : Store) : StoreEvent → Option Store
  | .begin task telegrams =>
    match s.tasks task, telegrams with
    | none, _ :: _ =>
      some { s with tasks := Function.update s.tasks task (some (.open_ telegrams s.cache)) }
    | _, _ => none
  | .commit task ids =>
    match s.tasks task with
    | some (.open_ telegrams cache) =>
      match storeMany engine ids cache telegrams s.db with
      | (_, some (db, lookupIds)) =>
        some { s with
          db
          tasks := Function.update s.tasks task (some (.committed lookupIds))
          stored := s.stored ++ telegrams }
      | (_, none) => none
    | _ => none
  | .rollback task =>
    match s.tasks task with
    | some (.open_ ..) => some { s with tasks := Function.update s.tasks task none }
    | _ => none
  | .publish task =>
    match s.tasks task with
    | some (.committed lookupIds) =>
      some { s with cache := s.cache.update lookupIds, tasks := Function.update s.tasks task none }
    | _ => none
  | .clear => some { s with db := s.db.clear, stored := [] }
  | .warm => some { s with cache := s.cache.warm s.db.lookup }
  | .restart => some { s with cache := fun _ => none, tasks := fun _ => none }

abbrev Store.run (engine : Engine) (events : List StoreEvent) : Option Store :=
  EventMachine.run (Store.step engine) {} events

/-- What a call under way knows of ids. -/
def Transaction.known : Transaction → LookupCache
  | .open_ _ cache => cache
  | .committed lookupIds => lookupIds

/-- **The interning invariant.** -/
structure Interned (engine : Engine) (s : Store) : Prop where
  cache : s.cache.Truthful s.db.lookup
  tasks : ∀ task transaction, s.tasks task = some transaction → transaction.known.Truthful s.db.lookup
  telegrams : List.Forall₂ (Stores engine s.db.lookup) (s.db.telegrams.map TelegramRow.toColumns) s.stored
  summaries : ∀ row ∈ s.db.lastGa, ∃ t ∈ s.stored, Stores engine s.db.lookup row t

theorem LookupCache.Truthful.update {resolved : LookupCache} (truthful : cache.Truthful lookup)
    (resolves : resolved.Truthful lookup) : (cache.update resolved).Truthful lookup := by
  intro pair id found
  unfold LookupCache.update at found
  cases known : resolved pair with
  | some other =>
    rw [known] at found
    cases found
    exact resolves pair _ known
  | none =>
    rw [known] at found
    exact truthful pair id found

/-- A task's slot set to what is truthful, or emptied. -/
private theorem tasks_update {tasks : ℕ → Option Transaction}
    (known : ∀ task transaction, tasks task = some transaction → transaction.known.Truthful lookup)
    {task : ℕ} {slot : Option Transaction}
    (truthful : ∀ transaction, slot = some transaction → transaction.known.Truthful lookup)
    (other : ℕ) (transaction : Transaction)
    (found : Function.update tasks task slot other = some transaction) :
    transaction.known.Truthful lookup := by
  by_cases same : other = task
  · subst same
    rw [Function.update_self] at found
    exact truthful transaction found
  · rw [Function.update_of_ne same] at found
    exact known other transaction found

theorem Interned.step {s s' : Store} {event : StoreEvent} (interned : Interned engine s)
    (taken : s.step engine event = some s') : Interned engine s' := by
  cases event with
  | begin task telegrams =>
    unfold Store.step at taken
    dsimp only at taken
    split at taken
    · cases taken
      refine { interned with tasks := tasks_update interned.tasks fun _ same => ?_ }
      cases same
      exact interned.cache
    · cases taken
  | commit task ids =>
    unfold Store.step at taken
    dsimp only at taken
    split at taken
    · rename_i telegrams cache opened
      split at taken
      · rename_i statements db lookupIds ran
        cases taken
        have stored := storeMany_stored (interned.tasks _ _ opened) ran
        obtain ⟨rows, columns, written⟩ := stored.inserted
        have known := fun other transaction found =>
          (interned.tasks other transaction found).grows stored.grows
        refine ⟨interned.cache.grows stored.grows, tasks_update known fun _ same => ?_, ?_, fun row mem => ?_⟩
        · cases same
          exact stored.truthful
        · show List.Forall₂ _ (db.telegrams.map TelegramRow.toColumns) (s.stored ++ telegrams)
          rw [columns]
          exact List.rel_append (interned.telegrams.imp fun _ _ stores => stores.grows stored.grows) written
        · rcases stored.upserted row mem with old | ⟨t, own, stores⟩
          · obtain ⟨t, held, stores⟩ := interned.summaries row old
            exact ⟨t, List.mem_append_left _ held, stores.grows stored.grows⟩
          · exact ⟨t, List.mem_append_right _ own, stores⟩
      · cases taken
    · cases taken
  | rollback task =>
    unfold Store.step at taken
    dsimp only at taken
    split at taken
    · cases taken
      exact { interned with tasks := tasks_update interned.tasks fun _ same => nomatch same }
    · cases taken
  | publish task =>
    unfold Store.step at taken
    dsimp only at taken
    split at taken
    · rename_i lookupIds committed
      cases taken
      exact { interned with
        cache := interned.cache.update (interned.tasks _ _ committed)
        tasks := tasks_update interned.tasks fun _ same => nomatch same }
    · cases taken
  | clear =>
    cases taken
    exact ⟨interned.cache, interned.tasks, .nil, fun _ mem => nomatch mem⟩
  | warm =>
    cases taken
    exact { interned with
      cache := interned.cache.update fun _ _ found => StringLookup.idOf_eq_some.mp found }
  | restart =>
    cases taken
    exact { interned with
      cache := fun _ _ found => nomatch found
      tasks := fun _ _ found => nomatch found }

theorem run_interned {events : List StoreEvent} {s : Store} (ran : Store.run engine events = some s) :
    Interned engine s := by
  refine EventMachine.run_keeps (fun _ _ _ interned taken => Interned.step interned taken) ?_ ran
  exact ⟨fun _ _ found => (nomatch found), fun _ _ found => (nomatch found), .nil, fun _ mem => (nomatch mem)⟩

end KnxTelegramStore.Sql
