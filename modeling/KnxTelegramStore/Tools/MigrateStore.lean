import KnxTelegramStore.Lib.BatchCopy
import KnxTelegramStore.Sql.LastValues
import KnxTelegramStore.Sql.Statements

/-!
`tools/migrate_store.py`: copying the telegrams of one SQL store into another,
batch by batch. A telegram is taken for copied if the destination, or an
earlier batch, has one with its timestamp. `migrate_iff` says for which
contents of the two stores that is a copy of all telegrams.
-/
namespace KnxTelegramStore.Tools
open Sql Paging BatchCopy EventMachine

variable {source dest : Engine} {ids : IdSource} {s d d' : Store} {sorting sorting' : Sorting ℤ}

/-! ## The tool -/

/-- `existing_timestamps`, from the page at `offset` on. -/
def existingTimestamps (engine : Engine) (db : Db) (sorting : Sorting ℤ) (batchSize : ℕ+) (offset : ℕ) :
    Option (List DateTime) :=
  match _asked : query engine db { limit := batchSize, offset } sorting with
  | none => none
  | some result =>
    if _more : result.limitReached then
      (existingTimestamps engine db sorting batchSize (offset + batchSize)).map
        (result.telegrams.map StoredTelegram.timestamp ++ ·)
    else some (result.telegrams.map StoredTelegram.timestamp)
termination_by db.telegrams.length - offset
decreasing_by
  have free : TelegramQuery.Unrestricted { limit := batchSize } := ⟨rfl, rfl, rfl, rfl, rfl, rfl, rfl, rfl, rfl⟩
  obtain ⟨telegrams, _, made⟩ := Option.bind_eq_some_iff.mp (Option.ite_none_right_eq_some.mp _asked).2
  cases made
  have reached : offset + batchSize < (matching engine.tzdb db { limit := batchSize, offset }).length :=
    of_decide_eq_true _more
  have all : matching engine.tzdb db { limit := batchSize, offset } = db.telegrams :=
    matching_unrestricted (q := { limit := batchSize }) free
  rw [all] at reached
  have positive := batchSize.pos
  omega

/-- `dest.store_many(...)`, with nothing else under way. A statement of more
parameters than the driver binds is an exception. -/
def storeAll (engine : Engine) (ids : IdSource) (s : Store) (telegrams : List StoredTelegram) : Option Store :=
  if ∀ statement ∈ (storeMany engine ids s.cache telegrams s.db).1, statement.boundParameters ≤ parameterLimit then
    run (Store.step engine) s [.begin 0 telegrams, .commit 0 ids, .publish 0]
  else none

/-- The loop over the source. -/
def migrateBatches (source dest : Engine) (ids : IdSource) (s : Store) (sorting : Sorting ℤ) (batchSize : ℕ+)
    (descending : Bool) (limitCount totalProcessed : ℕ) (d : Store) (existing : List DateTime) : Option Store :=
  if totalProcessed < limitCount then
    let currentBatchSize := min (batchSize : ℕ) (limitCount - totalProcessed)
    match query source s.db
        { limit := currentBatchSize, offset := totalProcessed, orderDescending := descending } sorting with
    | none => none
    | some result =>
      match _found : result.telegrams with
      | [] => some d
      | _ :: _ =>
        let newTelegrams := result.telegrams.filter (·.timestamp ∉ existing)
        (if newTelegrams.isEmpty then some d else storeAll dest ids d newTelegrams).bind fun d =>
          if result.limitReached then
            migrateBatches source dest ids s sorting batchSize descending limitCount
              (totalProcessed + result.telegrams.length) d (existing ++ newTelegrams.map StoredTelegram.timestamp)
          else some d
  else some d
termination_by limitCount - totalProcessed
decreasing_by
  rw [_found, List.length_cons]
  omega

/-- `migrate`, with both stores initialized. -/
def migrate (source dest : Engine) (ids : IdSource) (sorting sorting' : Sorting ℤ) (batchSize : ℕ+)
    (limitNewest : Option ℤ) (s d : Store) : Option Store :=
  (if 0 < count d.db then existingTimestamps dest d.db sorting' batchSize 0 else some []).bind fun existing =>
    let limitCount := (limitNewest.getD (count s.db)).toNat
    migrateBatches source dest ids s sorting batchSize limitNewest.isSome limitCount 0 d existing

/-! ## Pages in a fixed order -/

/-- The telegrams of a store as it returns them. -/
def returned (engine : Engine) (s : Store) : List StoredTelegram := s.stored.map (readBack engine)

/-- Python can read every timestamp. -/
def AllReadable (engine : Engine) (s : Store) : Prop := ∀ t ∈ s.stored, Readable engine t

/-- The pages of a query are slices of one list, up to the order within a
page. -/
theorem exists_pages {engine : Engine} (interned : Interned engine s) (readable : AllReadable engine s)
    (sorting : Sorting ℤ) (descending : Bool) :
    ∃ all : List StoredTelegram, all.Perm (returned engine s) ∧
      all.map StoredTelegram.timestamp = (arrange (fun row => row.timestamp) descending s.db.telegrams).map
        (fun row => DateTime.ofMicros row.timestamp) ∧
      ∀ limit offset, limit < 2 ^ 63 → offset < 2 ^ 63 →
        ∃ page : List StoredTelegram, page.Perm (slice offset limit all) ∧
          query engine s.db { limit, offset, orderDescending := descending } sorting =
            some ⟨page, all.length, offset + limit < all.length⟩ := by
  have rows := interned.rows
  have page := sorting.page_arranges descending s.db.telegrams
  rw [← rows] at page
  obtain ⟨arranged, arranges, sorted⟩ := page.of_map
  have length : (arranged.map fun entry => readBack engine entry.2).length = s.written.length := by
    rw [List.length_map, arranges.perm.length_eq]
  refine ⟨arranged.map fun entry => readBack engine entry.2, ?_, ?_, fun limit offset limitFits offsetFits => ?_⟩
  · rw [returned, ← interned.originals, List.map_map]
    exact arranges.perm.map _
  · have own : Arranges (fun row : TelegramRow ℤ => row.timestamp) descending s.db.telegrams
      (arranged.map Prod.fst) := by
      rw [← rows]
      exact Arranges.map arranges
    have keys := own.keys (arranges_arrange (fun row : TelegramRow ℤ => row.timestamp) descending s.db.telegrams)
    have instants := congrArg (List.map DateTime.ofMicros) keys
    simp only [List.map_map] at instants ⊢
    refine Eq.trans (List.map_congr_left fun entry mem => ?_) instants
    have stores := interned.stores entry (arranges.perm.mem_iff.mp mem)
    simp only [Function.comp_apply, readBack, stores.timestamp]
  · have free : TelegramQuery.Unrestricted { limit } := ⟨rfl, rfl, rfl, rfl, rfl, rfl, rfl, rfl, rfl⟩
    have matched : matching engine.tzdb s.db { limit, offset, orderDescending := descending } =
      s.written.map Prod.fst :=
      (matching_unrestricted (q := { limit }) free).trans rows.symm
    obtain ⟨page, again, reads⟩ := answer_page (q := { limit, offset, orderDescending := descending }) sorting matched
      arranges (by rw [matched]; exact sorted) interned.stores
      fun entry mem => readable entry.2 (stored_of_written mem)
    refine ⟨page.map fun entry => readBack engine entry.2, ?_, ?_⟩
    · rw [slice_map]
      exact again.perm.map _
    · rw [length, query_eq ((binds_unrestricted free limitFits).page limitFits offsetFits descending)]
      exact reads

theorem mem_drop_iff {α : Type*} {xs : List α} (offset limit : ℕ) {x : α} :
    x ∈ xs.drop offset ↔ x ∈ slice offset limit xs ∨ x ∈ xs.drop (offset + limit) := by
  rw [← List.drop_drop, slice, ← List.mem_append, List.take_append_drop]

/-- A page of the destination that is read. -/
theorem existingTimestamps_eq {engine : Engine} {db : Db} {batchSize : ℕ+} {offset : ℕ} {result : TelegramQueryResult}
    (reads : query engine db { limit := batchSize, offset } sorting' = some result) :
    existingTimestamps engine db sorting' batchSize offset =
      if result.limitReached then
        (existingTimestamps engine db sorting' batchSize (offset + batchSize)).map
          (result.telegrams.map StoredTelegram.timestamp ++ ·)
      else some (result.telegrams.map StoredTelegram.timestamp) := by
  rw [existingTimestamps]
  split
  · rename_i failed
    rw [reads] at failed
    cases failed
  · rename_i result' asked
    cases reads.symm.trans asked
    exact dite_eq_ite

/-- A page that is not ends the tool. -/
theorem existingTimestamps_none {engine : Engine} {db : Db} {batchSize : ℕ+} {offset : ℕ}
    (fails : query engine db { limit := batchSize, offset } sorting' = none) :
    existingTimestamps engine db sorting' batchSize offset = none := by
  rw [existingTimestamps]
  split
  · rfl
  · rename_i result asked
    cases fails.symm.trans asked

/-- The set has the timestamps of all telegrams. -/
theorem mem_existingTimestamps {engine : Engine} {db : Db} {all : List StoredTelegram}
    (pages : ∀ limit offset, limit < 2 ^ 63 → offset < 2 ^ 63 →
      ∃ page : List StoredTelegram, page.Perm (slice offset limit all) ∧
        query engine db { limit, offset } sorting' = some ⟨page, all.length, offset + limit < all.length⟩)
    (few : all.length < 2 ^ 63) {batchSize : ℕ+} (fits : (batchSize : ℕ) < 2 ^ 63) (offset : ℕ)
    (inside : offset < 2 ^ 63) :
    ∃ existing, existingTimestamps engine db sorting' batchSize offset = some existing ∧
      ∀ timestamp, timestamp ∈ existing ↔ timestamp ∈ (all.drop offset).map StoredTelegram.timestamp := by
  obtain ⟨page, same, reads⟩ := pages batchSize offset fits inside
  have here (timestamp : DateTime) : timestamp ∈ page.map StoredTelegram.timestamp ↔
      ∃ t ∈ slice offset batchSize all, t.timestamp = timestamp := by
    rw [List.mem_map]
    simp only [same.mem_iff]
  rw [existingTimestamps_eq reads]
  by_cases more : offset + batchSize < all.length
  · obtain ⟨others, found, mem⟩ := mem_existingTimestamps pages few fits (offset + batchSize) (more.trans few)
    refine ⟨page.map StoredTelegram.timestamp ++ others, ?_, fun timestamp => ?_⟩
    · rw [if_pos (decide_eq_true more), found]
      rfl
    · rw [List.mem_append, here, mem]
      simp only [List.mem_map, mem_drop_iff offset batchSize, or_and_right, exists_or]
  · refine ⟨page.map StoredTelegram.timestamp, if_neg (by simpa using more), fun timestamp => ?_⟩
    have last : all.drop (offset + batchSize) = [] := List.drop_eq_nil_of_le (not_lt.mp more)
    rw [here, List.mem_map]
    simp only [mem_drop_iff offset batchSize, last, List.not_mem_nil, or_false]
termination_by all.length - offset
decreasing_by
  have positive := batchSize.pos
  omega

/-! ## A batch is stored -/

/-- A telegram as another store has returned it: at a UTC instant in range. -/
def Returned (t : StoredTelegram) : Prop :=
  ∃ micros, t.timestamp = .ofMicros micros ∧ DateTime.microsToDatetime micros = some (.ofMicros micros)

theorem returned_readBack {engine : Engine} {t : StoredTelegram} (readable : Readable engine t) :
    Returned (readBack engine t) := ⟨_, rfl, readable⟩

theorem Returned.readable {t : StoredTelegram} (returned : Returned t) (engine : Engine) : Readable engine t := by
  obtain ⟨micros, timestamp, inside⟩ := returned
  rw [Readable, timestamp, DateTime.toMicros_ofMicros]
  exact inside

theorem Returned.wellFormed {engine : Engine} {t : StoredTelegram} (returned : Returned t)
    (storable : storable engine.backend t.payload t.dptMain t.dptSub t.value = true) : WellFormed engine t where
  aware := by
    obtain ⟨micros, timestamp, _⟩ := returned
    rw [timestamp]
    exact rfl
  readable := returned.readable engine
  storable := storable

theorem Returned.timestamp_readBack {t : StoredTelegram} (returned : Returned t) (engine : Engine) :
    (readBack engine t).timestamp = t.timestamp := by
  obtain ⟨micros, timestamp, _⟩ := returned
  simp only [readBack, timestamp, DateTime.toMicros_ofMicros]

/-- No call of the store is under way. -/
def Idle (s : Store) : Prop := s.tasks = fun _ => none

/-- A store after a batch, or after some. -/
structure Behind (engine : Engine) (d d' : Store) : Prop where
  interned : Interned engine d'
  idle : Idle d'
  rows : d.db.telegrams <+: d'.db.telegrams
  knows : ∀ pair, d'.cache pair = none → d.cache pair = none

theorem Behind.refl {engine : Engine} (interned : Interned engine d) (idle : Idle d) : Behind engine d d :=
  ⟨interned, idle, List.prefix_refl _, fun _ unknown => unknown⟩

theorem Behind.trans {engine : Engine} {d₁ : Store} (first : Behind engine d d₁) (later : Behind engine d₁ d') :
    Behind engine d d' :=
  ⟨later.interned, later.idle, first.rows.trans later.rows,
    fun pair unknown => first.knows pair (later.knows pair unknown)⟩

/-- What a `store_many` between two others does. -/
theorem storeAll_stores {engine : Engine} (ids : IdSource) (interned : Interned engine d) (idle : Idle d)
    {telegrams : List StoredTelegram} (nonempty : telegrams ≠ []) (taken : Taken engine d.cache telegrams) :
    ∃ d', storeAll engine ids d telegrams = some d' ∧ Behind engine d d' ∧ d'.stored = d.stored ++ telegrams := by
  obtain ⟨statements, db, lookupIds, ran⟩ : ∃ statements db' lookupIds,
      storeMany engine ids d.cache telegrams d.db = (statements, some (db', lookupIds)) := by
    obtain ⟨values, rows, latest, summaries, made, bound, kept, bound'⟩ :=
      batch_made ids d.cache d.db taken.wellFormed
    simp only [storeMany, made, bound, kept, bound', Option.map_some]
    exact ⟨_, _, _, rfl⟩
  obtain ⟨rows, inserted, _⟩ := storeMany_inserts interned.cache ran
  obtain ⟨t, rest, rfl⟩ := List.exists_cons_of_ne_nil nonempty
  have free : d.tasks 0 = none := congrFun idle 0
  have stored : run (Store.step engine) d [.begin 0 (t :: rest), .commit 0 ids, .publish 0] = some { d with
      db
      cache := d.cache.update lookupIds
      tasks := Function.update (Function.update (Function.update d.tasks 0 (some (.open_ (t :: rest) d.cache))) 0
        (some (.committed lookupIds))) 0 none
      stored := d.stored ++ t :: rest } := by
    simp only [run, Store.step, free, Option.bind_some, Function.update_self, ran]
  refine ⟨_, (if_pos ((statements_fit_iff taken.wellFormed).1 taken.fits)).trans stored, ⟨?_, ?_, ?_, ?_⟩, rfl⟩
  · exact EventMachine.run_keeps (fun _ _ _ kept step => Interned.step kept step) interned stored
  · rw [Idle, Function.update_idem, Function.update_idem, idle]
    exact Function.update_eq_self 0 _
  · show d.db.telegrams <+: db.telegrams
    rw [inserted]
    exact List.prefix_append _ _
  · intro pair unknown
    have split : (lookupIds pair).orElse (fun _ => d.cache pair) = none := unknown
    exact (Option.or_eq_none_iff.mp (Option.orElse_eq_or.symm.trans split)).2

/-- A batch that is not taken ends the tool. -/
theorem storeAll_refused {engine : Engine} (ids : IdSource) (interned : Interned engine d)
    {telegrams : List StoredTelegram} (utc : ∀ t ∈ telegrams, Returned t) (refused : ¬ Taken engine d.cache telegrams) :
    storeAll engine ids d telegrams = none := by
  unfold storeAll
  split
  case isFalse => rfl
  rename_i within
  by_cases storable : ∀ t ∈ telegrams, storable engine.backend t.payload t.dptMain t.dptSub t.value = true
  · have wellFormed : ∀ t ∈ telegrams, WellFormed engine t := fun t own => (utc t own).wellFormed (storable t own)
    exact absurd ⟨wellFormed, ((statements_fit_iff wellFormed).2 interned.cache).mp within⟩ refused
  · cases stored : (storeMany engine ids d.cache telegrams d.db).2 with
    | none =>
      cases telegrams with
      | nil => exact absurd (fun _ own => absurd own List.not_mem_nil) storable
      | cons t rest =>
        cases task : d.tasks 0 with
        | some _ => simp only [run, Store.step, task, Option.bind_none]
        | none =>
          obtain ⟨statements, fails⟩ : ∃ statements, storeMany engine ids d.cache (t :: rest) d.db =
            (statements, none) := ⟨_, Prod.ext rfl stored⟩
          simp only [run, Store.step, task, Option.bind_some, Function.update_self, fails, Option.bind_none]
    | some result =>
      refine absurd (fun t own => ?_) storable
      exact storable_of_stored (Prod.ext rfl stored) own

/-! ## The loop -/

/-- What a loop over the batches of a list has stored. -/
structure Copied (dest : Engine) (batchSize : ℕ+) (existing : List DateTime) (rest : List StoredTelegram)
    (d d' : Store) : Prop extends Behind dest d d' where
  stored : ∃ pages, List.Forall₂ List.Perm pages (chunks batchSize rest) ∧
    d'.stored = d.stored ++ copied StoredTelegram.timestamp existing pages ∧
    (copied StoredTelegram.timestamp existing pages = [] → d' = d)

/-- One turn of the loop. -/
theorem turn (ids : IdSource) (interned : Interned dest d) (idle : Idle d) {newTelegrams : List StoredTelegram}
    (taken : Taken dest d.cache newTelegrams) :
    ∃ d', (if newTelegrams.isEmpty then some d else storeAll dest ids d newTelegrams) = some d' ∧ Behind dest d d' ∧
      d'.stored = d.stored ++ newTelegrams ∧ (newTelegrams = [] → d' = d) := by
  by_cases nothing : newTelegrams = []
  · refine ⟨d, if_pos (List.isEmpty_iff.mpr nothing), .refl interned idle, ?_, fun _ => rfl⟩
    rw [nothing, List.append_nil]
  · obtain ⟨d', stores, behind, stored⟩ := storeAll_stores ids interned idle nothing taken
    refine ⟨d', ?_, behind, stored, fun empty => absurd empty nothing⟩
    rw [if_neg (List.isEmpty_iff.not.mpr nothing)]
    exact stores

/-- A turn whose page is read. -/
theorem migrateBatches_eq (ids : IdSource) {batchSize : ℕ+} {limitCount totalProcessed : ℕ} {existing : List DateTime}
    {result : TelegramQueryResult} (within : totalProcessed < limitCount)
    (reads : query source s.db
      { limit := min batchSize (limitCount - totalProcessed), offset := totalProcessed, orderDescending := false }
      sorting = some result) (some_ : result.telegrams ≠ []) :
    migrateBatches source dest ids s sorting batchSize false limitCount totalProcessed d existing =
      let newTelegrams := result.telegrams.filter (·.timestamp ∉ existing)
      (if newTelegrams.isEmpty then some d else storeAll dest ids d newTelegrams).bind fun d =>
        if result.limitReached then
          migrateBatches source dest ids s sorting batchSize false limitCount
            (totalProcessed + result.telegrams.length) d (existing ++ newTelegrams.map StoredTelegram.timestamp)
        else some d := by
  rw [migrateBatches, if_pos within]
  dsimp only
  rw [reads]
  dsimp only
  split
  · rename_i nothing
    exact absurd nothing some_
  · rfl

theorem migrateBatches_copied (ids : IdSource) {all : List StoredTelegram}
    (pages : ∀ limit offset, limit < 2 ^ 63 → offset < 2 ^ 63 →
      ∃ page : List StoredTelegram, page.Perm (slice offset limit all) ∧
        query source s.db { limit, offset, orderDescending := false } sorting =
          some ⟨page, all.length, offset + limit < all.length⟩)
    (few : all.length < 2 ^ 63) (batchSize : ℕ+) (totalProcessed : ℕ) (existing : List DateTime) {d : Store}
    (interned : Interned dest d) (idle : Idle d)
    (taken : Taken dest d.cache (all.filter (·.timestamp ∉ existing))) :
    ∃ d', migrateBatches source dest ids s sorting batchSize false all.length totalProcessed d existing = some d' ∧
      Copied dest batchSize existing (all.drop totalProcessed) d d' := by
  by_cases within : totalProcessed < all.length
  · obtain ⟨page, same, reads⟩ := pages (min batchSize (all.length - totalProcessed)) totalProcessed (by omega)
      (within.trans few)
    have nonempty : all.drop totalProcessed ≠ [] := List.drop_eq_nil_iff.not.mpr (not_le.mpr within)
    have first : slice totalProcessed (min batchSize (all.length - totalProcessed)) all =
        (all.drop totalProcessed).take batchSize := by
      rw [slice, List.take_eq_take_iff, List.length_drop]
      omega
    rw [first] at same
    have size : page.length = min (batchSize : ℕ) (all.length - totalProcessed) := by
      rw [same.length_eq, List.length_take, List.length_drop]
    have positive := batchSize.pos
    have some_ : page ≠ [] := List.ne_nil_of_length_pos (by omega)
    have own : page ⊆ all := fun t mem => List.mem_of_mem_drop (List.mem_of_mem_take (same.mem_iff.mp mem))
    obtain ⟨d₁, stored₁, behind₁, stores₁, unchanged₁⟩ := turn ids interned idle
      (taken.mono (List.filter_subset _ own) fun _ unknown => unknown)
    rw [migrateBatches_eq ids within reads some_]
    dsimp only
    rw [stored₁, Option.bind_some]
    by_cases more : totalProcessed + min (batchSize : ℕ) (all.length - totalProcessed) < all.length
    · have next : totalProcessed + page.length = totalProcessed + batchSize := by omega
      have fewer : all.filter (·.timestamp ∉ existing ++ (page.filter (·.timestamp ∉ existing)).map
          StoredTelegram.timestamp) ⊆ all.filter (·.timestamp ∉ existing) := by
        intro t mem
        obtain ⟨own, unknown⟩ := List.mem_filter.mp mem
        refine List.mem_filter.mpr ⟨own, decide_eq_true fun old => ?_⟩
        exact of_decide_eq_true unknown (List.mem_append_left _ old)
      obtain ⟨d', ran, copied'⟩ := migrateBatches_copied ids pages few batchSize (totalProcessed + page.length)
        (existing ++ (page.filter (·.timestamp ∉ existing)).map StoredTelegram.timestamp) behind₁.interned behind₁.idle
        (taken.mono fewer behind₁.knows)
      obtain ⟨pages', same', stored', unchanged'⟩ := copied'.stored
      refine ⟨d', ?_, behind₁.trans copied'.toBehind, page :: pages', ?_, ?_, ?_⟩
      · rw [if_pos (decide_eq_true more)]
        exact ran
      · rw [chunks_eq batchSize nonempty, List.drop_drop]
        rw [next] at same'
        exact .cons same same'
      · rw [stored', stores₁, List.append_assoc]
        rfl
      · intro nothing
        obtain ⟨here, later⟩ := List.append_eq_nil_iff.mp nothing
        rw [unchanged' later, unchanged₁ here]
    · refine ⟨d₁, if_neg (by simpa using more), behind₁, [page], ?_, ?_, ?_⟩
      · have last : (all.drop totalProcessed).drop batchSize = [] := by
          rw [List.drop_drop]
          exact List.drop_eq_nil_of_le (by omega)
        rw [chunks_eq batchSize nonempty, last, chunks_nil]
        exact .cons same .nil
      · rw [stores₁]
        simp only [copied, List.append_nil]
      · intro nothing
        exact unchanged₁ (List.append_eq_nil_iff.mp nothing).1
  · have last : all.drop totalProcessed = [] := List.drop_eq_nil_of_le (not_lt.mp within)
    refine ⟨d, ?_, .refl interned idle, [], ?_, ?_, fun _ => rfl⟩
    · rw [migrateBatches, if_neg within]
    · rw [last, chunks_nil]
      exact .nil
    · rw [copied, List.append_nil]
termination_by all.length - totalProcessed

/-! ## What is in the destination then -/

open Classical in
/-- How often a telegram is among others. -/
noncomputable def times (telegrams : List StoredTelegram) (t : StoredTelegram) : ℕ :=
  (telegrams.map StoredTelegram.numeric).count t.numeric

/-- The timestamps a store has. -/
def timestamps (engine : Engine) (s : Store) : List DateTime := (returned engine s).map StoredTelegram.timestamp

/-- Those of the source, in ascending order. -/
def ascending (s : Store) : List DateTime :=
  (arrange (fun row => row.timestamp) false s.db.telegrams).map fun row => DateTime.ofMicros row.timestamp

/-- What has a timestamp that the destination lacks. -/
def lacking (source dest : Engine) (s d : Store) : List StoredTelegram :=
  (returned source s).filter (·.timestamp ∉ timestamps dest d)

/-- Every telegram is there as often as in the one store or the other. -/
def CountsAgree (source dest : Engine) (s d d' : Store) : Prop :=
  ∀ t, times (returned dest d') t = max (times (returned source s) t) (times (returned dest d) t)

/-- The driver takes the batch size, if the destination is asked for as much. -/
def Asked (d : Store) (batchSize : ℕ+) : Prop := d.stored = [] ∨ (batchSize : ℕ) < 2 ^ 63

theorem returned_returned (readable : AllReadable source s) {t : StoredTelegram} (mem : t ∈ returned source s) :
    Returned t := by
  obtain ⟨own, held, rfl⟩ := List.mem_map.mp mem
  exact returned_readBack (readable own held)

theorem nothing_stored (interned : Interned dest d) : ¬ 0 < count d.db ↔ d.stored = [] := by
  rw [count, interned.length, not_lt, Nat.le_zero, List.length_eq_zero_iff]

/-- What the tool knows of the destination. -/
theorem existing_loaded (sorting' : Sorting ℤ) (interned : Interned dest d) (readable : AllReadable dest d)
    (few : d.stored.length < 2 ^ 63) {batchSize : ℕ+} (asked : Asked d batchSize) :
    ∃ existing,
      (if 0 < count d.db then existingTimestamps dest d.db sorting' batchSize 0 else some []) = some existing ∧
      ∀ timestamp, timestamp ∈ existing ↔ timestamp ∈ timestamps dest d := by
  by_cases some_ : 0 < count d.db
  · have fits : (batchSize : ℕ) < 2 ^ 63 :=
      asked.resolve_left fun nothing => (nothing_stored interned).mpr nothing some_
    obtain ⟨held, same, _, pages⟩ := exists_pages interned readable sorting' true
    have length : held.length < 2 ^ 63 := by
      rw [same.length_eq, returned, List.length_map]
      exact few
    obtain ⟨existing, loaded, mem⟩ := mem_existingTimestamps pages length fits 0 (by omega)
    refine ⟨existing, (if_pos some_).trans loaded, fun timestamp => (mem timestamp).trans ?_⟩
    exact (same.map _).mem_iff
  · refine ⟨[], if_neg some_, fun timestamp => ?_⟩
    simp only [timestamps, returned, (nothing_stored interned).mp some_, List.map_nil]

/-- What migrating the source in batches of `batchSize` does. -/
theorem migrate_copied (ids : IdSource) (sorting sorting' : Sorting ℤ) (interned : Interned source s)
    (readable : AllReadable source s) (interned' : Interned dest d) (readable' : AllReadable dest d) (idle : Idle d)
    (few : s.stored.length < 2 ^ 63) (few' : d.stored.length < 2 ^ 63)
    (taken : Taken dest d.cache (lacking source dest s d)) :
    ∃ all : List StoredTelegram, all.Perm (returned source s) ∧ all.map StoredTelegram.timestamp = ascending s ∧
      ∀ batchSize, Asked d batchSize →
        ∃ existing d', migrate source dest ids sorting sorting' batchSize none s d = some d' ∧
          (∀ timestamp, timestamp ∈ existing ↔ timestamp ∈ timestamps dest d) ∧
          Copied dest batchSize existing all d d' := by
  obtain ⟨all, same, keys, pages⟩ := exists_pages interned readable sorting false
  refine ⟨all, same, keys, fun batchSize asked => ?_⟩
  obtain ⟨existing, loaded, mem⟩ := existing_loaded sorting' interned' readable' few' asked
  have total : count s.db = all.length := by
    rw [count, interned.length, same.length_eq, returned, List.length_map]
  have new : all.filter (·.timestamp ∉ existing) ⊆ lacking source dest s d := by
    intro t own
    obtain ⟨own, unknown⟩ := List.mem_filter.mp own
    refine List.mem_filter.mpr ⟨same.mem_iff.mp own, decide_eq_true fun present => ?_⟩
    exact of_decide_eq_true unknown ((mem _).mpr present)
  obtain ⟨d', ran, copied⟩ := migrateBatches_copied ids pages (by rw [← total, count, interned.length]; exact few)
    batchSize 0 existing interned' idle (taken.mono new fun _ unknown => unknown)
  refine ⟨existing, d', ?_, mem, copied⟩
  simp only [migrate, loaded, Option.bind_some, Option.isSome_none, Option.getD_none, Int.toNat_natCast, total]
  exact ran

/-- The destination takes what it lacks. -/
def NewTaken (source dest : Engine) (s d : Store) : Prop :=
  (∀ t ∈ lacking source dest s d, storable dest.backend t.payload t.dptMain t.dptSub t.value = true) ∧
    Fits d.cache (lacking source dest s d)

/-- Its columns hold what it lacks as it is. -/
def NewHeld (source dest : Engine) (s d : Store) : Prop :=
  ∀ t ∈ lacking source dest s d, (readBack dest t).numeric = t.numeric

/-- They hold all of it together. -/
def NewKept (source dest : Engine) (s d : Store) : Prop :=
  ((lacking source dest s d).map fun t => (readBack dest t).numeric).Perm
    ((lacking source dest s d).map StoredTelegram.numeric)

/-- What has a timestamp that the destination has is there already. -/
def KnownHeld (source dest : Engine) (s d : Store) : Prop :=
  ∀ t ∈ returned source s, t.timestamp ∈ timestamps dest d → times (returned source s) t ≤ times (returned dest d) t

/-- What shares a timestamp that the destination lacks is in one batch. -/
def WithinBatches (dest : Engine) (s d : Store) (batchSize : ℕ+) : Prop :=
  ∀ timestamp ∈ ascending s, timestamp ∉ timestamps dest d → Apart id timestamp (chunks batchSize (ascending s))

theorem NewTaken.taken (newTaken : NewTaken source dest s d) (readable : AllReadable source s) :
    Taken dest d.cache (lacking source dest s d) where
  wellFormed t own := (returned_returned readable (List.mem_of_mem_filter own)).wellFormed (newTaken.1 t own)
  fits := newTaken.2

theorem times_append (xs ys : List StoredTelegram) (t : StoredTelegram) :
    times (xs ++ ys) t = times xs t + times ys t := by
  classical
  rw [times, List.map_append]
  exact List.count_append

theorem times_eq_zero {xs : List StoredTelegram} {t : StoredTelegram} :
    times xs t = 0 ↔ ∀ x ∈ xs, x.numeric ≠ t.numeric := by
  classical
  rw [times, List.count_eq_zero, List.mem_map]
  simp only [not_exists, not_and, ne_eq]

theorem times_perm {xs ys : List StoredTelegram} : (∀ t, times xs t = times ys t) ↔
    (xs.map StoredTelegram.numeric).Perm (ys.map StoredTelegram.numeric) := by
  classical
  rw [List.perm_iff_count]
  refine ⟨fun agree t => ?_, fun agree t => agree t.numeric⟩
  by_cases plain : t.numeric = t
  · rw [← plain]
    exact agree t
  · have out (zs : List StoredTelegram) : (zs.map StoredTelegram.numeric).count t = 0 := by
      refine List.count_eq_zero.mpr fun mem => plain ?_
      obtain ⟨z, _, rfl⟩ := List.mem_map.mp mem
      exact z.numeric_numeric
    rw [out, out]

/-- The same telegram has the same timestamp. -/
theorem times_filter (kept : DateTime → Bool) (xs : List StoredTelegram) (t : StoredTelegram) :
    times (xs.filter fun x => kept x.timestamp) t = if kept t.timestamp then times xs t else 0 := by
  classical
  have moved : (xs.filter fun x => kept x.timestamp).map StoredTelegram.numeric =
      (xs.map StoredTelegram.numeric).filter fun x => kept x.timestamp := by
    rw [List.filter_map]
    rfl
  rw [times, moved]
  by_cases own : kept t.timestamp = true
  · rw [if_pos own]
    exact List.count_filter own
  · rw [if_neg own]
    exact List.count_eq_zero.mpr fun mem => own (List.mem_filter.mp mem).2

theorem times_lacking (t : StoredTelegram) : times (lacking source dest s d) t =
    if t.timestamp ∈ timestamps dest d then 0 else times (returned source s) t := by
  have split := times_filter (fun timestamp => timestamp ∉ timestamps dest d) (returned source s) t
  by_cases present : t.timestamp ∈ timestamps dest d
  · rw [if_pos present]
    exact split.trans (if_neg (by simpa using present))
  · rw [if_neg present]
    exact split.trans (if_pos (decide_eq_true present))

theorem times_known {engine : Engine} {t : StoredTelegram} (absent : t.timestamp ∉ timestamps engine s) :
    times (returned engine s) t = 0 :=
  times_eq_zero.mpr fun u mem same => absent (List.mem_map.mpr ⟨u, mem, (congrArg StoredTelegram.timestamp same :)⟩)

section Counts

variable {all : List StoredTelegram} {existing : List DateTime} {batchSize : ℕ+} {pages : List (List StoredTelegram)}

/-- What is new in the destination has new timestamps. -/
theorem timestamp_new (utc : ∀ t ∈ pages.flatten, Returned t)
    (mem : ∀ timestamp, timestamp ∈ existing ↔ timestamp ∈ timestamps dest d) {t : StoredTelegram}
    (new : t ∈ (copied StoredTelegram.timestamp existing pages).map (readBack dest)) :
    t.timestamp ∉ timestamps dest d := by
  obtain ⟨u, own, rfl⟩ := List.mem_map.mp new
  rw [(utc u (copied_sublist.subset own)).timestamp_readBack, ← mem]
  exact key_not_known own

theorem apart_pages (keys : all.map StoredTelegram.timestamp = ascending s)
    (batches : List.Forall₂ List.Perm pages (chunks batchSize all)) {timestamp : DateTime} :
    Apart id timestamp (chunks batchSize (ascending s)) ↔ Apart StoredTelegram.timestamp timestamp pages := by
  rw [← keys, apart_keys]
  exact ⟨apart_of_perm (batches.flip.imp fun _ _ perm => perm.symm), apart_of_perm batches⟩

/-- What the destination lacks arrives, if no two batches share a timestamp of
it. -/
theorem copied_lacking (same : all.Perm (returned source s)) (keys : all.map StoredTelegram.timestamp = ascending s)
    (mem : ∀ timestamp, timestamp ∈ existing ↔ timestamp ∈ timestamps dest d)
    (batches : List.Forall₂ List.Perm pages (chunks batchSize all)) (within : WithinBatches dest s d batchSize) :
    (copied StoredTelegram.timestamp existing pages).Perm (lacking source dest s d) := by
  have flat : pages.flatten.Perm all := (flatten_perm batches).trans (by rw [flatten_chunks])
  have apart : ∀ timestamp, timestamp ∉ existing → Apart StoredTelegram.timestamp timestamp pages := by
    intro timestamp absent
    rw [← apart_pages keys batches]
    by_cases own : timestamp ∈ ascending s
    · exact within timestamp own fun present => absent ((mem timestamp).mpr present)
    · refine List.pairwise_of_forall_mem_list fun batch _ later held _ other inside same => own ?_
      rw [← flatten_chunks batchSize (ascending s)]
      exact List.mem_flatten.mpr ⟨later, held, same ▸ inside⟩
  rw [copied_eq_filter apart, lacking]
  simp only [mem]
  exact (flat.trans same).filter _

/-- If as much arrives as the destination lacks, no two batches share a
timestamp of it: what the later batch has of it would be left out. -/
theorem within_of_arrived (utc : ∀ t ∈ pages.flatten, Returned t) (same : pages.flatten.Perm (returned source s))
    (keys : all.map StoredTelegram.timestamp = ascending s)
    (mem : ∀ timestamp, timestamp ∈ existing ↔ timestamp ∈ timestamps dest d)
    (batches : List.Forall₂ List.Perm pages (chunks batchSize all))
    (arrive : ∀ t, times ((copied StoredTelegram.timestamp existing pages).map (readBack dest)) t =
      times (lacking source dest s d) t) : WithinBatches dest s d batchSize := by
  intro timestamp _ absent
  rw [apart_pages keys batches]
  by_contra shared
  have fewer := filter_copied_lt (fun brought => absent ((mem timestamp).mp brought)) shared
  have both : ∀ t, times (((copied StoredTelegram.timestamp existing pages).map (readBack dest)).filter
        fun x => x.timestamp = timestamp) t =
      times ((returned source s).filter fun x => x.timestamp = timestamp) t := by
    intro t
    rw [times_filter (fun x => x = timestamp), times_filter (fun x => x = timestamp), arrive t, times_lacking]
    by_cases at_ : t.timestamp = timestamp
    · rw [at_, if_neg absent]
    · simp only [at_, decide_false, Bool.false_eq_true, if_false]
  have lengths : ((copied StoredTelegram.timestamp existing pages).filter (·.timestamp = timestamp)).length =
      ((returned source s).filter (·.timestamp = timestamp)).length := by
    have equal := (times_perm.mp both).length_eq
    rw [List.length_map, List.length_map, List.filter_map, List.length_map] at equal
    rw [← equal]
    refine congrArg List.length (List.filter_congr fun u mem' => ?_)
    simp only [Function.comp_apply, (utc u (copied_sublist.subset mem')).timestamp_readBack]
  rw [lengths, (same.filter _).length_eq] at fewer
  exact lt_irrefl _ fewer

/-- Nothing arrives of what has a timestamp that the destination has. -/
theorem times_arrived (utc : ∀ t ∈ pages.flatten, Returned t)
    (mem : ∀ timestamp, timestamp ∈ existing ↔ timestamp ∈ timestamps dest d) {t : StoredTelegram}
    (present : t.timestamp ∈ timestamps dest d) :
    times ((copied StoredTelegram.timestamp existing pages).map (readBack dest)) t = 0 := by
  refine times_eq_zero.mpr fun u new same => timestamp_new utc mem new ?_
  have at_ : u.timestamp = t.timestamp := (congrArg StoredTelegram.timestamp same :)
  rwa [at_]

theorem KnownHeld.times_le (knownHeld : KnownHeld source dest s d) {t : StoredTelegram}
    (present : t.timestamp ∈ timestamps dest d) : times (returned source s) t ≤ times (returned dest d) t := by
  by_cases own : ∃ u ∈ returned source s, u.numeric = t.numeric
  · obtain ⟨u, held, same⟩ := own
    have at_ : u.timestamp = t.timestamp := (congrArg StoredTelegram.timestamp same :)
    have enough := knownHeld u held (at_ ▸ present)
    simpa only [times, same] using enough
  · rw [times_eq_zero.mpr fun u held same => own ⟨u, held, same⟩]
    exact Nat.zero_le _

theorem countsAgree_iff (utc : ∀ t ∈ all, Returned t) (same : all.Perm (returned source s))
    (keys : all.map StoredTelegram.timestamp = ascending s)
    (mem : ∀ timestamp, timestamp ∈ existing ↔ timestamp ∈ timestamps dest d)
    (batches : List.Forall₂ List.Perm pages (chunks batchSize all))
    (stored : d'.stored = d.stored ++ copied StoredTelegram.timestamp existing pages) :
    CountsAgree source dest s d d' ↔ NewKept source dest s d ∧ KnownHeld source dest s d ∧
      WithinBatches dest s d batchSize := by
  have flat : pages.flatten.Perm all := (flatten_perm batches).trans (by rw [flatten_chunks])
  have utc' : ∀ t ∈ pages.flatten, Returned t := fun t own => utc t (flat.mem_iff.mp own)
  have after : returned dest d' =
      returned dest d ++ (copied StoredTelegram.timestamp existing pages).map (readBack dest) := by
    rw [returned, stored, List.map_append]
    rfl
  -- as often in what arrives as in what the destination lacks
  have kept (within : WithinBatches dest s d batchSize) : NewKept source dest s d ↔
      ∀ t, times ((copied StoredTelegram.timestamp existing pages).map (readBack dest)) t =
        times (lacking source dest s d) t := by
    have arrives := copied_lacking same keys mem batches within
    rw [times_perm, NewKept, List.map_map]
    have moved := arrives.map (StoredTelegram.numeric ∘ readBack dest)
    exact ⟨moved.trans, moved.symm.trans⟩
  simp only [CountsAgree, after, times_append]
  constructor
  · intro agree
    have arrive : ∀ t, times ((copied StoredTelegram.timestamp existing pages).map (readBack dest)) t =
        times (lacking source dest s d) t := by
      intro t
      rw [times_lacking]
      by_cases present : t.timestamp ∈ timestamps dest d
      · rw [if_pos present, times_arrived utc' mem present]
      · have here := agree t
        rw [times_known present] at here
        rw [if_neg present]
        omega
    have within := within_of_arrived utc' (flat.trans same) keys mem batches arrive
    refine ⟨(kept within).mpr arrive, fun t own present => ?_, within⟩
    have here := agree t
    rw [times_arrived utc' mem present, Nat.add_zero] at here
    rw [here]
    exact le_max_left _ _
  · rintro ⟨newKept, knownHeld, within⟩ t
    rw [(kept within).mp newKept t, times_lacking]
    by_cases present : t.timestamp ∈ timestamps dest d
    · rw [if_pos present, Nat.add_zero, max_eq_right (knownHeld.times_le present)]
    · rw [if_neg present, times_known present, Nat.zero_add, Nat.max_zero]

end Counts

theorem timestamps_perm (interned : Interned source s) (readable : AllReadable source s) :
    (ascending s).Perm (timestamps source s) := by
  obtain ⟨all, same, keys, _⟩ := exists_pages interned readable .stable false
  rw [ascending, ← keys]
  exact same.map _

/-- **One batch size**, if all can be read and the destination takes what it
lacks: the earlier telegrams stay, and a second run, with whatever batch size,
adds nothing. The copy is complete exactly if besides the columns keep what is
new, what is known is there, and no timestamp that the destination lacks is in
two batches. -/
theorem migrate_batches_iff (ids : IdSource) (sorting sorting' : Sorting ℤ) (interned : Interned source s)
    (readable : AllReadable source s) (interned' : Interned dest d) (readable' : AllReadable dest d) (idle : Idle d)
    (few : s.stored.length + d.stored.length < 2 ^ 63) (newTaken : NewTaken source dest s d) {batchSize : ℕ+}
    (asked : Asked d batchSize) :
    ∃ d', migrate source dest ids sorting sorting' batchSize none s d = some d' ∧
      d.db.telegrams <+: d'.db.telegrams ∧
      (∀ batchSize', Asked d' batchSize' → migrate source dest ids sorting sorting' batchSize' none s d' = some d') ∧
      (WithinBatches dest s d batchSize →
        (returned dest d').Perm (returned dest d ++ (lacking source dest s d).map (readBack dest))) ∧
      (CountsAgree source dest s d d' ↔
        NewKept source dest s d ∧ KnownHeld source dest s d ∧ WithinBatches dest s d batchSize) := by
  obtain ⟨all, same, keys, each⟩ := migrate_copied ids sorting sorting' interned readable interned' readable' idle
    (by omega) (by omega) (newTaken.taken readable)
  have utc : ∀ t ∈ all, Returned t := fun t mem => returned_returned readable (same.mem_iff.mp mem)
  obtain ⟨existing, d', ran, mem, done⟩ := each batchSize asked
  obtain ⟨pages, batches, stored, _⟩ := done.stored
  have flat : pages.flatten.Perm all := (flatten_perm batches).trans (by rw [flatten_chunks])
  refine ⟨d', ran, done.rows, fun batchSize' asked' => ?_, fun within => ?_,
    countsAgree_iff utc same keys mem batches stored⟩
  · have readable'' : AllReadable dest d' := by
      intro t own
      rw [stored, List.mem_append] at own
      rcases own with old | new
      · exact readable' t old
      · exact (utc t (flat.mem_iff.mp (copied_sublist.subset new))).readable dest
    have covered : ∀ t ∈ returned source s, t.timestamp ∈ timestamps dest d' := by
      intro t own
      rw [timestamps, returned, stored, List.map_append, List.map_append, List.mem_append]
      rcases exists_copied existing (flat.mem_iff.mpr (same.mem_iff.mpr own)) with old | ⟨u, new, equal⟩
      · exact .inl ((mem _).mp old)
      · refine .inr (List.mem_map.mpr ⟨readBack dest u, List.mem_map_of_mem new, ?_⟩)
        rw [(utc u (flat.mem_iff.mp (copied_sublist.subset new))).timestamp_readBack, equal]
    have nothing : lacking source dest s d' = [] :=
      List.filter_eq_nil_iff.mpr fun t own absent => of_decide_eq_true absent (covered t own)
    have fewer : d'.stored.length < 2 ^ 63 := by
      have arrived : (copied StoredTelegram.timestamp existing pages).length ≤ s.stored.length := by
        refine copied_sublist.length_le.trans (le_of_eq ?_)
        rw [flat.length_eq, same.length_eq, returned, List.length_map]
      rw [stored, List.length_append]
      omega
    have taken' : Taken dest d'.cache (lacking source dest s d') :=
      (newTaken.taken readable).mono (nothing ▸ List.nil_subset _) done.knows
    obtain ⟨all', same', _, each'⟩ := migrate_copied ids sorting sorting' interned readable done.interned readable''
      done.idle (by omega) fewer taken'
    obtain ⟨existing', d'', again, mem', done'⟩ := each' batchSize' asked'
    obtain ⟨pages', batches', _, unchanged⟩ := done'.stored
    have flat' : pages'.flatten.Perm all' := (flatten_perm batches').trans (by rw [flatten_chunks])
    rw [again, unchanged (List.eq_nil_iff_forall_not_mem.mpr fun t new => ?_)]
    refine key_not_known new ((mem' _).mpr (covered t ?_))
    exact same'.mem_iff.mp (flat'.mem_iff.mp (copied_sublist.subset new))
  · rw [returned, stored, List.map_append]
    exact ((copied_lacking same keys mem batches within).map _).append_left _

/-! ## When it fails -/

/-- A batch size that the driver does not take. -/
theorem asked_of_migrate {ids : IdSource} (interned : Interned dest d) {batchSize : ℕ+}
    (ran : migrate source dest ids sorting sorting' batchSize none s d = some d') : Asked d batchSize := by
  obtain ⟨existing, loaded, _⟩ := Option.bind_eq_some_iff.mp ran
  by_cases some_ : 0 < count d.db
  · right
    by_contra large
    have unbound : query dest d.db { limit := batchSize, offset := 0 } sorting' = none :=
      if_neg fun binds => large binds.limit
    rw [if_pos some_, existingTimestamps_none unbound] at loaded
    cases loaded
  · exact .inl ((nothing_stored interned).mp some_)

/-- A batch size that holds both stores. -/
theorem exists_whole (few : s.stored.length + d.stored.length < 2 ^ 63)
    (some_ : 0 < s.stored.length + d.stored.length) :
    ∃ batchSize : ℕ+, Asked d batchSize ∧ s.stored.length ≤ batchSize ∧ d.stored.length ≤ batchSize :=
  ⟨⟨s.stored.length + d.stored.length, some_⟩, .inr few, Nat.le_add_right _ _, Nat.le_add_left _ _⟩

/-- One batch that holds both stores asks for a telegram that cannot be
read. -/
theorem migrate_unreadable (ids : IdSource) (sorting sorting' : Sorting ℤ) (interned : Interned source s)
    (interned' : Interned dest d) (few : s.stored.length + d.stored.length < 2 ^ 63)
    (unreadable : ¬ (AllReadable source s ∧ AllReadable dest d)) :
    ∃ batchSize, Asked d batchSize ∧ migrate source dest ids sorting sorting' batchSize none s d = none := by
  have fails {engine : Engine} {store : Store} (unreadable : ¬ AllReadable engine store) :
      ∃ t ∈ store.stored, DateTime.microsToDatetime (t.timestamp.toMicros engine.tzdb) = none := by
    simp only [AllReadable, not_forall] at unreadable
    obtain ⟨t, own, unread⟩ := unreadable
    refine ⟨t, own, ?_⟩
    unfold Readable DateTime.microsToDatetime at unread
    unfold DateTime.microsToDatetime
    by_cases inside : DateTime.minWall ≤ t.timestamp.toMicros engine.tzdb ∧
      t.timestamp.toMicros engine.tzdb ≤ DateTime.maxWall
    · exact absurd (if_pos inside) unread
    · exact if_neg inside
  by_cases readable : AllReadable source s
  · have unreadable' : ¬ AllReadable dest d := fun readable' => unreadable ⟨readable, readable'⟩
    obtain ⟨t, own, unread⟩ := fails unreadable'
    have stored := List.length_pos_of_mem own
    obtain ⟨batchSize, asked, _, size⟩ := exists_whole few (by omega)
    refine ⟨batchSize, asked, Option.bind_eq_none_iff.mpr fun existing loaded => ?_⟩
    have some_ : 0 < count d.db := by
      rw [count, interned'.length]
      exact stored
    have failed : query dest d.db { limit := batchSize, offset := 0 } sorting' = none :=
      interned'.reads_none sorting' own unread ⟨rfl, rfl, rfl, rfl, rfl, rfl, rfl, rfl, rfl⟩ size
    rw [if_pos some_, existingTimestamps_none failed] at loaded
    cases loaded
  · obtain ⟨t, own, unread⟩ := fails readable
    have stored := List.length_pos_of_mem own
    obtain ⟨batchSize, asked, size, _⟩ := exists_whole few (by omega)
    refine ⟨batchSize, asked, Option.bind_eq_none_iff.mpr fun existing loaded => ?_⟩
    have some_ : 0 < count s.db := by
      rw [count, interned.length]
      exact stored
    have failed : query source s.db
        { limit := min batchSize (count s.db - 0), offset := 0, orderDescending := false } sorting = none := by
      refine interned.reads_none sorting own unread ⟨rfl, rfl, rfl, rfl, rfl, rfl, rfl, rfl, rfl⟩ (le_min size ?_)
      rw [count, interned.length, Nat.sub_zero]
    simp only [Option.isSome_none, Option.getD_none, Int.toNat_natCast]
    rw [migrateBatches, if_pos some_]
    dsimp only
    rw [failed]

/-- One batch that holds the source has all that the destination does not
take. -/
theorem migrate_refused (ids : IdSource) (sorting sorting' : Sorting ℤ) (interned : Interned source s)
    (readable : AllReadable source s) (interned' : Interned dest d) (readable' : AllReadable dest d)
    (few : s.stored.length + d.stored.length < 2 ^ 63) (refused : ¬ NewTaken source dest s d) :
    ∃ batchSize, Asked d batchSize ∧ migrate source dest ids sorting sorting' batchSize none s d = none := by
  have untaken : ¬ Taken dest d.cache (lacking source dest s d) := fun taken =>
    refused ⟨fun t own => (taken.wellFormed t own).storable, taken.fits⟩
  have some_ : lacking source dest s d ≠ [] := by
    intro nothing
    rw [nothing] at untaken
    exact untaken ⟨fun _ own => absurd own List.not_mem_nil, Nat.zero_le _, Nat.zero_le _⟩
  have stored : 0 < s.stored.length := by
    have held := (List.length_pos_of_ne_nil some_).trans_le (List.filter_sublist (l := returned source s)).length_le
    rwa [returned, List.length_map] at held
  obtain ⟨batchSize, asked, size, _⟩ := exists_whole few (by omega)
  refine ⟨batchSize, asked, ?_⟩
  obtain ⟨all, same, _, pages⟩ := exists_pages interned readable sorting false
  obtain ⟨existing, loaded, mem⟩ := existing_loaded sorting' interned' readable' (by omega) asked
  have total : all.length = s.stored.length := by rw [same.length_eq, returned, List.length_map]
  have total' : count s.db = s.stored.length := interned.length
  obtain ⟨page, whole, reads⟩ := pages (min batchSize (count s.db - 0)) 0 (by omega) (by omega)
  have all_ : slice 0 (min batchSize (count s.db - 0)) all = all := by
    rw [slice, List.drop_zero, List.take_of_length_le]
    omega
  rw [all_] at whole
  have new : (page.filter (·.timestamp ∉ existing)).Perm (lacking source dest s d) := by
    simp only [lacking, mem]
    exact (whole.trans same).filter _
  have utc : ∀ t ∈ page.filter (·.timestamp ∉ existing), Returned t := fun t own =>
    returned_returned readable (List.mem_of_mem_filter (new.mem_iff.mp own))
  have fails : storeAll dest ids d (page.filter (·.timestamp ∉ existing)) = none := by
    refine storeAll_refused ids interned' utc fun taken => untaken ?_
    exact taken.mono new.symm.subset fun _ unknown => unknown
  have page_ : page ≠ [] := by
    rintro rfl
    rw [← whole.length_eq, List.length_nil] at total
    omega
  simp only [migrate, loaded, Option.bind_some, Option.isSome_none, Option.getD_none, Int.toNat_natCast]
  rw [migrateBatches_eq ids (by omega) reads page_]
  dsimp only
  rw [if_neg, fails, Option.bind_none]
  rw [List.isEmpty_iff]
  intro nothing
  rw [nothing] at new
  exact some_ new.nil_eq.symm

/-! ## The main result -/

/-- The copy that the tool is to make: for every batch size each telegram is
there as often as in the one store or the other, those of the destination are
as they were, and a second run adds nothing; and the batch size makes no
difference. -/
structure CompleteCopy (source dest : Engine) (ids : IdSource) (sorting sorting' : Sorting ℤ) (s d : Store) : Prop where
  each : ∀ batchSize, Asked d batchSize →
    ∃ d', migrate source dest ids sorting sorting' batchSize none s d = some d' ∧
      CountsAgree source dest s d d' ∧ d.db.telegrams <+: d'.db.telegrams ∧
      ∀ batchSize', Asked d' batchSize' → migrate source dest ids sorting sorting' batchSize' none s d' = some d'
  same : ∀ batchSize batchSize' d₁ d₂, migrate source dest ids sorting sorting' batchSize none s d = some d₁ →
    migrate source dest ids sorting sorting' batchSize' none s d = some d₂ → (returned dest d₁).Perm (returned dest d₂)

/-- No two telegrams of the source share a timestamp that the destination
lacks. -/
def NewAlone (source dest : Engine) (s d : Store) : Prop :=
  ∀ timestamp, timestamp ∉ timestamps dest d → (timestamps source s).count timestamp ≤ 1

theorem newAlone_of_within (interned : Interned source s) (readable : AllReadable source s)
    (within : WithinBatches dest s d 1) : NewAlone source dest s d := by
  intro timestamp absent
  rw [← (timestamps_perm interned readable).count_eq]
  by_cases own : timestamp ∈ ascending s
  · rw [List.count_eq_length_filter]
    exact alone_of_apart (within timestamp own absent)
  · rw [List.count_eq_zero.mpr own]
    exact Nat.zero_le 1

theorem NewAlone.within (alone : NewAlone source dest s d) (interned : Interned source s)
    (readable : AllReadable source s) (batchSize : ℕ+) : WithinBatches dest s d batchSize := by
  intro timestamp _ absent
  have once := alone timestamp absent
  rw [← (timestamps_perm interned readable).count_eq, List.count_eq_length_filter] at once
  exact apart_of_alone once batchSize

/-- Where each has a timestamp of its own, none can be taken for another. -/
theorem NewAlone.kept_iff (alone : NewAlone source dest s d) (readable : AllReadable source s) :
    NewKept source dest s d ↔ NewHeld source dest s d := by
  constructor
  · intro kept t own
    obtain ⟨u, own', same⟩ := List.mem_map.mp (kept.mem_iff.mp (List.mem_map_of_mem own))
    obtain ⟨held, absent⟩ := List.mem_filter.mp own
    have timestamp : u.timestamp = t.timestamp := by
      rw [← (returned_returned readable held).timestamp_readBack dest]
      exact (congrArg StoredTelegram.timestamp same :)
    have once := alone t.timestamp (of_decide_eq_true absent)
    rw [timestamps, List.count_eq_length_filter, List.filter_map, List.length_map] at once
    rw [← same, eq_of_alone once (List.mem_of_mem_filter own') timestamp held rfl]
  · intro held
    exact List.Perm.of_eq (List.map_congr_left held)

/-- One transaction into an empty database. -/
def storing (telegrams : List StoredTelegram) : List StoreEvent := [.begin 0 telegrams, .commit 0 .sqlite, .publish 0]

def nextSample : StoredTelegram := { sampleTelegram with timestamp := .ofMicros 1, destination := "1/2/4" }

def twinSample : StoredTelegram := { sampleTelegram with destination := "1/2/4" }

theorem empty_interned : Interned sampleEngine {} := by
  have ran₀ : Store.run sampleEngine [] = some {} := rfl
  exact run_interned ran₀

end KnxTelegramStore.Tools
