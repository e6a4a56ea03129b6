import KnxTelegramStore.Sql.Results
import Mathlib.Data.Finset.Card

/-!
How many parameters the statements of `store_many` bind. The re-fetch of the
lookups binds every string the cache does not have, and the upsert of
`last_ga_telegrams` every destination of the batch, both in one statement;
`statements_fit_iff` says which batches that leaves storable.
-/
namespace KnxTelegramStore.Sql

variable {engine : Engine} {ids : IdSource} {cache lookupIds : LookupCache} {lookup : StringLookup}
variable {telegrams : List StoredTelegram} {values latest : List (Columns DateTime)} {db : Db}

/-- A telegram that the columns can hold, whatever batch it is in. -/
structure WellFormed (engine : Engine) (t : StoredTelegram) : Prop where
  aware : t.timestamp.Aware
  readable : Readable engine t
  storable : storable engine.backend t.payload t.dptMain t.dptSub t.value = true

/-- The strings of a batch that its cache does not know, and its
destinations, are few enough for one statement each. -/
structure Fits (cache : LookupCache) (telegrams : List StoredTelegram) : Prop where
  lookups : (toResolve cache telegrams).length ≤ 16383
  destinations : (telegrams.map StoredTelegram.destination).dedup.length ≤ 2340

/-! ## One summary for each destination -/

/-- Each destination of the batch has one latest value. -/
theorem latest_destinations {tzdb : TzDb} (made : latestPerDestination tzdb values = some latest) :
    (latest.map Columns.destinationId).Perm (values.map Columns.destinationId).dedup := by
  have invariant : ∀ (values start : List (Columns DateTime)) {latest},
      values.foldlM (keepLatest tzdb) start = some latest → (start.map Columns.destinationId).Nodup →
      (latest.map Columns.destinationId).Nodup ∧ ∀ id, id ∈ latest.map Columns.destinationId ↔
        id ∈ start.map Columns.destinationId ∨ id ∈ values.map Columns.destinationId := by
    intro values
    induction values with
    | nil =>
      intro start latest made unique
      cases made
      exact ⟨unique, fun id => by simp⟩
    | cons val values ih =>
      intro start latest made unique
      obtain ⟨next, kept, later⟩ := Option.bind_eq_some_iff.mp (List.foldlM_cons.symm.trans made)
      have destinations := keepLatest_destinations kept
      by_cases known : val.destinationId ∈ start.map Columns.destinationId
      · rw [if_pos known] at destinations
        obtain ⟨unique', members⟩ := ih next later (destinations ▸ unique)
        refine ⟨unique', fun id => ?_⟩
        rw [members, destinations, List.map_cons, List.mem_cons]
        constructor
        · exact Or.imp_right .inr
        · rintro (old | rfl | new)
          · exact .inl old
          · exact .inl known
          · exact .inr new
      · rw [if_neg known] at destinations
        have unique : (next.map Columns.destinationId).Nodup := by
          rw [destinations]
          exact unique.append (List.nodup_singleton _) (by simpa [List.disjoint_singleton] using known)
        obtain ⟨unique', members⟩ := ih next later unique
        refine ⟨unique', fun id => ?_⟩
        rw [members, destinations, List.map_cons, List.mem_cons, List.mem_append, List.mem_singleton, or_assoc]
  obtain ⟨unique, members⟩ := invariant values [] made List.nodup_nil
  refine (List.perm_ext_iff_of_nodup unique (List.nodup_dedup _)).mpr fun id => ?_
  rw [members, List.mem_dedup]
  simp

/-- Comparing aware timestamps never raises. -/
theorem latest_made (tzdb : TzDb) (aware : ∀ val ∈ values, val.timestamp.Aware) :
    ∃ latest, latestPerDestination tzdb values = some latest := by
  have made : ∀ (values start : List (Columns DateTime)), (∀ val ∈ start, val.timestamp.Aware) →
      (∀ val ∈ values, val.timestamp.Aware) → ∃ latest, values.foldlM (keepLatest tzdb) start = some latest := by
    intro values
    induction values with
    | nil => exact fun start _ _ => ⟨start, rfl⟩
    | cons val values ih =>
      intro start earlier later
      have own := later val List.mem_cons_self
      have kept : ∃ next, keepLatest tzdb start val = some next := by
        unfold keepLatest
        split
        · exact ⟨_, rfl⟩
        · rename_i current found
          obtain ⟨x, zone⟩ := Option.isSome_iff_exists.mp (earlier current (List.mem_of_find?_eq_some found))
          obtain ⟨y, zone'⟩ := Option.isSome_iff_exists.mp own
          simp only [DateTime.lt?, zone, zone']
          split <;> exact ⟨_, rfl⟩
      obtain ⟨next, kept⟩ := kept
      have aware : ∀ other ∈ next, other.timestamp.Aware := by
        intro other mem
        rcases keepLatest_mem kept mem with old | rfl
        · exact earlier other old
        · exact own
      obtain ⟨latest, made⟩ := ih next aware fun other mem => later other (List.mem_cons_of_mem _ mem)
      refine ⟨latest, ?_⟩
      rw [List.foldlM_cons, kept]
      exact made
  exact made values [] (fun _ mem => absurd mem List.not_mem_nil) aware

/-! ## The destinations of a batch and their ids -/

/-- Distinct ids are at most as many as the destinations they stand for, and
exactly as many if no two destinations share one. -/
theorem destinations_resolved (lookup : StringLookup) (made : telegrams.mapM (valuesOf lookupIds) = some values) :
    (values.map Columns.destinationId).dedup.length ≤ (telegrams.map StoredTelegram.destination).dedup.length ∧
      (lookupIds.Truthful lookup → (values.map Columns.destinationId).dedup.length =
        (telegrams.map StoredTelegram.destination).dedup.length) := by
  have resolved : List.Forall₂ (fun t val => lookupIds (.destination, t.destination) = some val.destinationId)
      telegrams values := by
    refine (mapM_some_iff.mp made).imp fun t val made => ?_
    obtain ⟨_, _, _, _, _, _, _, destination, _, _, _, _, rfl⟩ := valuesOf_some made
    exact destination
  have image : values.map Columns.destinationId =
      (telegrams.map StoredTelegram.destination).map fun value => (lookupIds (.destination, value)).getD 0 := by
    rw [List.map_map]
    clear made
    induction resolved with
    | nil => rfl
    | cons first _ ih =>
      rw [List.map_cons, List.map_cons, ih]
      simp [first]
  rw [← List.card_toFinset, ← List.card_toFinset, image]
  have mapped : ((telegrams.map StoredTelegram.destination).map
      fun value => (lookupIds (.destination, value)).getD 0).toFinset =
      (telegrams.map StoredTelegram.destination).toFinset.image
        fun value => (lookupIds (.destination, value)).getD 0 := by
    ext id
    simp
  rw [mapped]
  refine ⟨Finset.card_image_le, fun truthful => Finset.card_image_of_injOn fun value mem value' mem' same => ?_⟩
  have known {value : String} (mem : value ∈ (telegrams.map StoredTelegram.destination).toFinset) :
      ∃ id, lookupIds (.destination, value) = some id := by
    obtain ⟨t, own, rfl⟩ := List.mem_map.mp (List.mem_toFinset.mp mem)
    obtain ⟨val, _, found⟩ := forall₂_mem resolved.flip own
    exact ⟨_, found⟩
  obtain ⟨id, found⟩ := known mem
  obtain ⟨id', found'⟩ := known mem'
  simp only [found, found', Option.getD_some] at same
  subst same
  exact (Prod.mk.inj ((truthful _ _ found).pair_unique (truthful _ _ found'))).2

/-- Every pair of the batch has an id, so the values of each telegram can be
made. -/
theorem values_made (ids : IdSource) (cache : LookupCache) (telegrams : List StoredTelegram) (lookup : StringLookup) :
    ∃ values, telegrams.mapM (valuesOf
      (resolve cache (lookup.insertAll ids (toResolve cache telegrams)) telegrams)) = some values := by
  have each : ∀ t ∈ telegrams, ∃ val, valuesOf
      (resolve cache (lookup.insertAll ids (toResolve cache telegrams)) telegrams) t = some val := by
    intro t mem
    have found (pair : Pair) (own : pair ∈ pairsOf t) : ∃ id,
        resolve cache (lookup.insertAll ids (toResolve cache telegrams)) telegrams pair = some id :=
      resolve_some ids lookup mem own
    obtain ⟨_, source⟩ := found (.source, t.source) (by simp [pairsOf])
    obtain ⟨_, destination⟩ := found (.destination, t.destination) (by simp [pairsOf])
    obtain ⟨_, telegramtype⟩ := found (.telegramtype, t.telegramtype) (by simp [pairsOf])
    obtain ⟨_, direction⟩ := found (.direction, t.direction) (by simp [pairsOf])
    obtain ⟨_, sourceName⟩ := found (.sourceName, t.sourceName) (by simp [pairsOf])
    obtain ⟨_, destinationName⟩ := found (.destinationName, t.destinationName) (by simp [pairsOf])
    simp only [valuesOf, source, destination, telegramtype, direction, sourceName, destinationName]
    exact ⟨_, rfl⟩
  exact exists_mapM each

/-! ## The statements of a batch -/

/-- Well-formed telegrams can be bound. -/
theorem bind_made {t : StoredTelegram} {val : Columns DateTime} (wellFormed : WellFormed engine t)
    (made : valuesOf lookupIds t = some val) : ∃ row, val.bind engine = some row := by
  obtain ⟨_, _, _, _, _, _, _, _, _, _, _, _, rfl⟩ := valuesOf_some made
  have bound : ∃ micros, bindTimestamp engine.backend engine.tzdb t.timestamp = some micros := by
    unfold bindTimestamp
    split
    · exact ⟨_, rfl⟩
    · rw [wellFormed.readable]
      exact ⟨_, rfl⟩
  obtain ⟨micros, bound⟩ := bound
  rw [Columns.bind, if_pos wellFormed.storable, bound]
  exact ⟨_, rfl⟩

/-- Whatever a batch of well-formed telegrams writes can be made and bound. -/
theorem batch_made (ids : IdSource) (cache : LookupCache) (db : Db)
    (wellFormed : ∀ t ∈ telegrams, WellFormed engine t) :
    ∃ values rows latest summaries, telegrams.mapM (valuesOf
        (resolve cache (db.lookup.insertAll ids (toResolve cache telegrams)) telegrams)) = some values ∧
      values.mapM (Columns.bind engine) = some rows ∧ latestPerDestination engine.tzdb values = some latest ∧
      latest.mapM (Columns.bind engine) = some summaries := by
  obtain ⟨values, made⟩ := values_made ids cache telegrams db.lookup
  have copied := mapM_some_iff.mp made
  have aware : ∀ val ∈ values, val.timestamp.Aware := by
    intro val mem
    obtain ⟨t, own, made⟩ := forall₂_mem copied mem
    obtain ⟨_, _, _, _, _, _, _, _, _, _, _, _, rfl⟩ := valuesOf_some made
    exact (wellFormed t own).aware
  have bindable : ∀ val ∈ values, ∃ row, val.bind engine = some row := by
    intro val mem
    obtain ⟨t, own, made⟩ := forall₂_mem copied mem
    exact bind_made (wellFormed t own) made
  obtain ⟨rows, bound⟩ := exists_mapM bindable
  obtain ⟨latest, kept⟩ := latest_made engine.tzdb aware
  obtain ⟨summaries, bound'⟩ := exists_mapM fun val mem => bindable val (latest_subset kept mem)
  exact ⟨values, rows, latest, summaries, made, bound, kept, bound'⟩

/-- The statements of a batch of well-formed telegrams: none of them is
spared by an error. -/
theorem statements_issued (ids : IdSource) (cache : LookupCache) (db : Db)
    (wellFormed : ∀ t ∈ telegrams, WellFormed engine t) :
    ∃ values latest, (storeMany engine ids cache telegrams db).1 =
        (ids.order (toResolve cache telegrams)).map Statement.insertLookup ++
          (if toResolve cache telegrams = [] then [] else [.selectLookups (toResolve cache telegrams)]) ++
          [.insertTelegrams values] ++ [.upsertLastGa latest] ∧
      latest.length ≤ (telegrams.map StoredTelegram.destination).dedup.length ∧
      (cache.Truthful db.lookup →
        latest.length = (telegrams.map StoredTelegram.destination).dedup.length) := by
  obtain ⟨values, rows, latest, summaries, made, bound, kept, _⟩ := batch_made ids cache db wellFormed
  have length : latest.length = (values.map Columns.destinationId).dedup.length := by
    rw [← (latest_destinations kept).length_eq, List.length_map]
  obtain ⟨most, all⟩ := destinations_resolved (db.lookup.insertAll ids (toResolve cache telegrams)) made
  refine ⟨values, latest, ?_, length ▸ most, fun truthful => length ▸ all (truthful_resolve ids truthful telegrams)⟩
  simp only [storeMany, made, bound, kept]

/-- **Which batches fit** in their statements. A batch with at most 16383
strings to look up and at most 2340 destinations always does; with a cache
that is true to the table no other one does. -/
theorem statements_fit_iff (wellFormed : ∀ t ∈ telegrams, WellFormed engine t) :
    (Fits cache telegrams → ∀ statement ∈ (storeMany engine ids cache telegrams db).1,
        statement.boundParameters ≤ parameterLimit) ∧
      (cache.Truthful db.lookup → ((∀ statement ∈ (storeMany engine ids cache telegrams db).1,
        statement.boundParameters ≤ parameterLimit) ↔ Fits cache telegrams)) := by
  obtain ⟨values, latest, issued, most, all⟩ :=
    statements_issued ids cache db wellFormed
  have fit (fits : Fits cache telegrams) : ∀ statement ∈ (storeMany engine ids cache telegrams db).1,
      statement.boundParameters ≤ parameterLimit := by
    obtain ⟨lookups, destinations⟩ := fits
    rw [issued]
    simp only [List.mem_append, List.mem_map, List.mem_singleton]
    rintro statement (((⟨pair, _, rfl⟩ | selected) | rfl) | rfl)
    · simp [Statement.boundParameters, parameterLimit]
    · split at selected
      · cases selected
      · obtain rfl := List.mem_singleton.mp selected
        simp only [Statement.boundParameters, parameterLimit]
        omega
    · simp [Statement.boundParameters, parameterLimit, columnCount]
    · simp only [Statement.boundParameters, parameterLimit, columnCount]
      omega
  refine ⟨fit, fun truthful => ⟨fun within => ?_, fit⟩⟩
  rw [issued] at within
  simp only [List.mem_append, List.mem_singleton] at within
  constructor
  · by_cases none_missing : toResolve cache telegrams = []
    · rw [none_missing]
      exact Nat.zero_le _
    · have refetch := within (.selectLookups (toResolve cache telegrams))
        (.inl (.inl (.inr (by rw [if_neg none_missing]; exact List.mem_singleton_self _))))
      simp only [Statement.boundParameters, parameterLimit] at refetch
      omega
  · have summaries := within (.upsertLastGa latest) (.inr rfl)
    simp only [Statement.boundParameters, parameterLimit, columnCount, all truthful] at summaries
    omega

/-! ## Batches that are taken -/

/-- A part of a batch fits if the batch does, with a cache that knows more
too. -/
theorem Fits.mono {cache' : LookupCache} {telegrams' : List StoredTelegram} (fits : Fits cache telegrams)
    (fewer : telegrams' ⊆ telegrams) (knows : ∀ pair, cache' pair = none → cache pair = none) :
    Fits cache' telegrams' where
  lookups := by
    have unknown : toResolve cache' telegrams' ⊆ toResolve cache telegrams := by
      intro pair mem
      obtain ⟨asked, unknown⟩ := List.mem_filter.mp mem
      obtain ⟨t, own, named⟩ := List.mem_flatMap.mp (List.mem_dedup.mp asked)
      refine List.mem_filter.mpr ⟨List.mem_dedup.mpr (List.mem_flatMap.mpr ⟨t, fewer own, named⟩), ?_⟩
      exact decide_eq_true (knows pair (of_decide_eq_true unknown))
    exact (((List.nodup_dedup _).filter _).subperm unknown).length_le.trans fits.lookups
  destinations := by
    have within : (telegrams'.map StoredTelegram.destination).dedup ⊆
        (telegrams.map StoredTelegram.destination).dedup := by
      intro destination mem
      rw [List.mem_dedup] at mem ⊢
      exact List.map_subset _ fewer mem
    exact ((List.nodup_dedup _).subperm within).length_le.trans fits.destinations

/-- A batch that `store_many` takes, with such a cache. -/
structure Taken (engine : Engine) (cache : LookupCache) (telegrams : List StoredTelegram) : Prop where
  wellFormed : ∀ t ∈ telegrams, WellFormed engine t
  fits : Fits cache telegrams

theorem Taken.mono {cache' : LookupCache} {telegrams' : List StoredTelegram} (taken : Taken engine cache telegrams)
    (fewer : telegrams' ⊆ telegrams) (knows : ∀ pair, cache' pair = none → cache pair = none) :
    Taken engine cache' telegrams' where
  wellFormed t own := taken.wellFormed t (fewer own)
  fits := taken.fits.mono fewer knows

/-- A `store_many` that succeeds has written columns that hold their values. -/
theorem storable_of_stored {statements : List Statement} {db' : Db}
    (ran : storeMany engine ids cache telegrams db = (statements, some (db', lookupIds))) {t : StoredTelegram}
    (own : t ∈ telegrams) : storable engine.backend t.payload t.dptMain t.dptSub t.value = true := by
  obtain ⟨values, rows, _, _, _, made, bound, _⟩ := storeMany_success ran
  obtain ⟨val, mem, made⟩ := forall₂_mem made.flip own
  obtain ⟨row, _, bound⟩ := forall₂_mem bound.flip mem
  obtain ⟨_, _, _, _, _, _, _, _, _, _, _, _, rfl⟩ := valuesOf_some made
  exact (Columns.bind_some bound).1

/-- A batch of one telegram fits, with a cold cache too. -/
theorem single_telegram_fits : WellFormed sampleEngine sampleTelegram ∧
    ∀ statement ∈ (storeMany sampleEngine .sqlite (fun _ => none) [sampleTelegram] {}).1,
      statement.boundParameters ≤ parameterLimit := by
  have wellFormed : WellFormed sampleEngine sampleTelegram := ⟨rfl, rfl, rfl⟩
  have fits : Fits (fun _ => none) [sampleTelegram] := ⟨by decide, by decide⟩
  exact ⟨wellFormed, (statements_fit_iff (by simpa using wellFormed)).1 fits⟩

/-- As many telegrams, each to a group address of its own. -/
def addressed (count : ℕ) : List StoredTelegram :=
  (List.range count).map fun address => { sampleTelegram with destination := toString address }

/-- Every one of the telegrams is well-formed, and the statement that writes
their summaries exceeds the limit. -/
theorem summaries_exceed_limit :
    (∀ t ∈ addressed 2341, WellFormed sampleEngine t) ∧
      ∃ statement ∈ (storeMany sampleEngine .sqlite (fun _ => none) (addressed 2341) {}).1,
        parameterLimit < statement.boundParameters := by
  have wellFormed : ∀ t ∈ addressed 2341, WellFormed sampleEngine t := by
    intro t mem
    obtain ⟨address, _, rfl⟩ := List.mem_map.mp mem
    exact ⟨rfl, rfl, rfl⟩
  refine ⟨wellFormed, ?_⟩
  have distinct : ((addressed 2341).map StoredTelegram.destination).Nodup := by
    rw [addressed, List.map_map]
    refine List.nodup_range.map fun address address' same => ?_
    have digits : (Nat.repr address).toList = (Nat.repr address').toList := congrArg String.toList same
    rw [Nat.toList_repr, Nat.toList_repr] at digits
    rw [← Nat.ofDigitChars_ten_toDigits (n := address), digits, Nat.ofDigitChars_ten_toDigits]
  obtain ⟨values, latest, issued, _, all⟩ :=
    statements_issued .sqlite (fun _ => none) {} wellFormed
  refine ⟨.upsertLastGa latest, ?_, ?_⟩
  · rw [issued]
    exact List.mem_append_right _ (List.mem_singleton_self _)
  · have count : latest.length = 2341 := by
      rw [all fun _ _ found => (nomatch found), distinct.dedup, addressed]
      simp only [List.length_map, List.length_range]
    simp only [Statement.boundParameters, count]
    decide

end KnxTelegramStore.Sql
