import KnxTelegramStore.Sql.Interning

/-!
What a store gives back. In an interned store each of the six joins of a row
finds one string, that of the telegram the row was written from, so that
reading a row gives the telegram again with its columns' normalisations
(`readBack`) and no read drops a row.
-/
namespace KnxTelegramStore.Sql
open Relational Paging

variable {engine : Engine} {lookup : StringLookup} {category : Category} {value : String} {id : ℕ}
variable {t : StoredTelegram} {s : Store} {q : TelegramQuery} {sorting : Sorting ℤ}

/-- A telegram as it is read back: its instant in UTC, and what its columns
hold of its JSON values and its numeric value. -/
def readBack (engine : Engine) (t : StoredTelegram) : StoredTelegram :=
  { t with
    timestamp := .ofMicros (t.timestamp.toMicros engine.tzdb)
    payload := t.payload.map (Payload.jsonColumn engine.backend engine.real)
    value := t.value.jsonColumn engine.backend engine.real
    valueNumeric := bindDouble engine.backend t.valueNumeric }

/-- The UTC instant is in the range of a `datetime`. -/
def Readable (engine : Engine) (t : StoredTelegram) : Prop :=
  DateTime.microsToDatetime (t.timestamp.toMicros engine.tzdb) =
    some (.ofMicros (t.timestamp.toMicros engine.tzdb))

/-! ## Joins on the primary key -/

theorem holds_onLookup {id : Option ℕ} {row : LookupRow} :
    Holds (onLookup category id row) ↔ id = some row.id ∧ row.category = category := by
  simp [onLookup]

/-- A row has at most one partner in each join. -/
theorem partners (lookup : StringLookup) (category : Category) (id : Option ℕ) :
    (lookup.rows.filter fun row => Holds (onLookup category id row)).length ≤ 1 := by
  have distinct := (List.filter_sublist (l := lookup.rows)
    (p := fun row => Holds (onLookup category id row))).map LookupRow.id |>.nodup lookup.ids_unique
  have same : (lookup.rows.filter fun row => Holds (onLookup category id row)).map LookupRow.id =
      List.replicate (lookup.rows.filter fun row => Holds (onLookup category id row)).length (id.getD 0) := by
    refine List.eq_replicate_iff.mpr ⟨List.length_map _, fun n mem => ?_⟩
    obtain ⟨row, partner, rfl⟩ := List.mem_map.mp mem
    have on := holds_onLookup.mp (of_decide_eq_true (List.mem_filter.mp partner).2)
    rw [on.1]
    rfl
  rw [same] at distinct
  exact List.nodup_replicate.mp distinct

theorem find_partner (named : lookup.Names (category, value) id) :
    lookup.rows.find? (fun row => Holds (onLookup category (some id) row)) = some ⟨id, category, value⟩ := by
  cases found : lookup.rows.find? (fun row => Holds (onLookup category (some id) row)) with
  | none =>
    have absent := List.find?_eq_none.mp found _ named
    exact absurd (decide_eq_true (holds_onLookup.mpr ⟨rfl, rfl⟩)) absent
  | some row =>
    have chosen := List.find?_some found
    have on := holds_onLookup.mp (of_decide_eq_true chosen)
    exact congrArg some
      (StringLookup.eq_of_id (List.mem_of_find?_eq_some found) named (Option.some.inj on.1).symm)

theorem joined_eq (lookup : StringLookup) (category : Category) (id : Option ℕ) :
    ∃ value, joined lookup category id = [value] := by
  rw [joined, leftMatches_eq (partners lookup category id)]
  exact ⟨_, rfl⟩

theorem joined_names (named : lookup.Names (category, value) id) : joined lookup category (some id) = [some value] := by
  rw [joined, leftMatches_eq (partners lookup category (some id)), find_partner named]
  rfl

theorem innerJoined_names (named : lookup.Names (category, value) id) : innerJoined lookup category id = [value] := by
  have found := find_partner named
  rw [← List.head?_filter] at found
  have single := partners lookup category (some id)
  unfold innerJoined
  match partner : lookup.rows.filter
      (fun row => Holds (onLookup category (some id) row)) with
  | [] => simp [partner] at found
  | [row] =>
    rw [partner] at found
    cases Option.some.inj found
    rfl
  | _ :: _ :: _ => simp [partner] at single

/-- The row with the strings of its telegram. -/
def Fetched.of {τ : Type} (row : TelegramRow τ) (t : StoredTelegram) : Fetched τ where
  row := row
  source := some t.source
  destination := some t.destination
  telegramtype := some t.telegramtype
  direction := some t.direction
  sourceName := some t.sourceName
  destinationName := some t.destinationName

/-- The joins neither drop a row nor repeat one, whatever its ids. -/
theorem fetchRow_row {τ : Type} [LinearOrder τ] (lookup : StringLookup) (row : TelegramRow τ) :
    (fetchRow lookup row).map Fetched.row = [row] := by
  obtain ⟨_, source⟩ := joined_eq lookup .source (some row.sourceId)
  obtain ⟨_, destination⟩ := joined_eq lookup .destination (some row.destinationId)
  obtain ⟨_, telegramtype⟩ := joined_eq lookup .telegramtype (some row.telegramtypeId)
  obtain ⟨_, direction⟩ := joined_eq lookup .direction (some row.directionId)
  obtain ⟨_, sourceName⟩ := joined_eq lookup .sourceName row.sourceNameId
  obtain ⟨_, destinationName⟩ := joined_eq lookup .destinationName row.destinationNameId
  simp [fetchRow, source, destination, telegramtype, direction, sourceName, destinationName]

theorem fetchRow_labels {τ : Type} [LinearOrder τ] {row : TelegramRow τ} (labels : Labels lookup row.toColumns t) :
    fetchRow lookup row = [.of row t] := by
  obtain ⟨sourceName, at_source, named⟩ := labels.sourceName
  obtain ⟨destinationName, at_destination, named'⟩ := labels.destinationName
  simp only [fetchRow, joined_names labels.source, joined_names labels.destination,
    joined_names labels.telegramtype, joined_names labels.direction, at_source, at_destination,
    joined_names named, joined_names named', List.bind_eq_flatMap, List.flatMap_cons, List.flatMap_nil,
    List.append_nil]
  rfl

theorem fetchSummary_labels {row : Columns ℤ} (labels : Labels lookup row t) :
    fetchSummary lookup row = [.of { row with rowid := 0 } t] := by
  obtain ⟨sourceName, at_source, named⟩ := labels.sourceName
  obtain ⟨destinationName, at_destination, named'⟩ := labels.destinationName
  simp only [fetchSummary, innerJoined_names labels.source, innerJoined_names labels.destination,
    innerJoined_names labels.telegramtype, innerJoined_names labels.direction, at_source, at_destination,
    joined_names named, joined_names named', List.bind_eq_flatMap, List.flatMap_cons, List.flatMap_nil,
    List.append_nil]
  rfl

theorem read_stores {row : TelegramRow ℤ} (stores : Stores engine lookup row.toColumns t)
    (readable : Readable engine t) : (Fetched.of row t).read = some (readBack engine t) := by
  have instant : DateTime.microsToDatetime row.timestamp =
      some (.ofMicros (t.timestamp.toMicros engine.tzdb)) := by
    rw [stores.timestamp]
    exact readable
  simp [Fetched.read, Fetched.readAs, Fetched.of, instant, readBack, stores.payload, stores.dptMain, stores.dptSub,
    stores.value, stores.valueNumeric, stores.rawData, stores.dataSecure]

/-! ## Answers on rows whose telegrams are known -/

theorem mem_slice {ρ : Type*} {rows : List ρ} {offset limit : ℕ} {row : ρ}
    (mem : row ∈ slice offset limit rows) : row ∈ rows :=
  List.mem_of_mem_drop (List.mem_of_mem_take mem)

theorem mapM_congr_mem {α β : Type*} {f g : α → Option β} {xs : List α} (each : ∀ x ∈ xs, f x = g x) :
    xs.mapM f = xs.mapM g := by
  induction xs with
  | nil => rfl
  | cons x xs ih =>
    rw [List.mapM_cons, List.mapM_cons, each x List.mem_cons_self, ih fun y mem => each y (List.mem_cons_of_mem _ mem)]

theorem map_eq_of_forall₂ {α β γ : Type*} {R : α → β → Prop} {f : α → γ} {g : β → γ} {xs : List α} {ys : List β}
    (related : List.Forall₂ R xs ys) (same : ∀ x ∈ xs, ∀ y, R x y → f x = g y) : xs.map f = ys.map g := by
  induction related with
  | nil => rfl
  | cons first _ ih =>
    rw [List.map_cons, List.map_cons, same _ List.mem_cons_self _ first,
      ih fun x mem => same x (List.mem_cons_of_mem _ mem)]

theorem exists_mapM {α β : Type*} {f : α → Option β} {xs : List α} (each : ∀ x ∈ xs, ∃ y, f x = some y) :
    ∃ ys, xs.mapM f = some ys := by
  induction xs with
  | nil => exact ⟨[], rfl⟩
  | cons x xs ih =>
    obtain ⟨y, first⟩ := each x List.mem_cons_self
    obtain ⟨ys, rest⟩ := ih fun z mem => each z (List.mem_cons_of_mem _ mem)
    exact ⟨y :: ys, by rw [List.mapM_cons, first, rest]; rfl⟩

theorem mapM_eq_map {α β : Type*} {f : α → Option β} {g : α → β} {xs : List α}
    (each : ∀ x ∈ xs, f x = some (g x)) : xs.mapM f = some (xs.map g) := by
  refine mapM_some_iff.mpr ?_
  rw [List.forall₂_map_right_iff, List.forall₂_same]
  exact each

/-- An answer is its slice of what the page statement has arranged, perhaps
with equal timestamps in another order. -/
theorem answer_page (sorting : Sorting ℤ) {written arranged : List (TelegramRow ℤ × StoredTelegram)}
    (matched : matching engine.tzdb s.db q = written.map Prod.fst)
    (arranges : Arranges (fun entry : TelegramRow ℤ × StoredTelegram => entry.1.timestamp) q.orderDescending
      written arranged)
    (sorted : arranged.map Prod.fst = sorting.page q.orderDescending (matching engine.tzdb s.db q))
    (stores : ∀ entry ∈ written, Stores engine s.db.lookup entry.1.toColumns entry.2)
    (readable : ∀ entry ∈ written, Readable engine entry.2) :
    ∃ page, Arranges (fun entry : TelegramRow ℤ × StoredTelegram => entry.1.timestamp) q.orderDescending
        (slice q.offset q.limit arranged) page ∧
      answer engine.tzdb s.db q sorting = some
        { telegrams := page.map fun entry => readBack engine entry.2
          totalCount := written.length
          limitReached := q.offset + q.limit < written.length } := by
  have own : ∀ entry ∈ slice q.offset q.limit arranged, entry ∈ written :=
    fun entry mem => arranges.perm.mem_iff.mp (mem_slice mem)
  have fetched : (slice q.offset q.limit (sorting.page q.orderDescending (matching engine.tzdb s.db q))).flatMap
      (fetchRow s.db.lookup) = (slice q.offset q.limit arranged).map fun entry => Fetched.of entry.1 entry.2 := by
    rw [← sorted, slice_map, List.flatMap_map]
    refine Eq.trans (List.flatMap_congr fun entry mem => ?_) List.map_eq_flatMap.symm
    exact fetchRow_labels (stores entry (own entry mem)).labels
  have result := sorting.result_arranges q.orderDescending
    ((slice q.offset q.limit arranged).map fun entry => Fetched.of entry.1 entry.2)
  obtain ⟨page, again, sorted'⟩ := result.of_map
  refine ⟨page, again, ?_⟩
  have read : (fetchPage s.db.lookup (matching engine.tzdb s.db q) q sorting).mapM Fetched.read =
      some (page.map fun entry => readBack engine entry.2) := by
    unfold fetchPage
    dsimp only
    rw [fetched, ← sorted', List.mapM_map]
    refine mapM_eq_map fun entry mem => ?_
    have held := own entry (again.perm.mem_iff.mp mem)
    exact read_stores (stores entry held) (readable entry held)
  unfold answer limitReached
  rw [read, matched]
  simp

/-- An answer is a page of the matching telegrams in one of the orders of
their timestamps, each as it is read back. -/
theorem answer_reads (sorting : Sorting ℤ) {written : List (TelegramRow ℤ × StoredTelegram)}
    (matched : matching engine.tzdb s.db q = written.map Prod.fst)
    (stores : ∀ entry ∈ written, Stores engine s.db.lookup entry.1.toColumns entry.2)
    (readable : ∀ entry ∈ written, Readable engine entry.2) :
    ∃ arranged, Arranges (fun entry : TelegramRow ℤ × StoredTelegram => entry.1.timestamp) q.orderDescending
        written arranged ∧
      answer engine.tzdb s.db q sorting = some
        { telegrams := (slice q.offset q.limit arranged).map fun entry => readBack engine entry.2
          totalCount := written.length
          limitReached := q.offset + q.limit < written.length } := by
  have page := sorting.page_arranges q.orderDescending (matching engine.tzdb s.db q)
  rw [matched] at page
  obtain ⟨arranged, arranges, sorted⟩ := page.of_map
  rw [← matched] at sorted
  obtain ⟨page', again, reads⟩ := answer_page sorting matched arranges sorted stores readable
  obtain ⟨arranged', whole, same⟩ := arranges.resort again
  exact ⟨arranged', whole, by rw [reads, same]⟩

/-! ## The rows of an interned store, with their telegrams -/

/-- Every row of `telegrams` with the telegram it was written from. -/
def Store.written (s : Store) : List (TelegramRow ℤ × StoredTelegram) := s.db.telegrams.zip s.stored

theorem Interned.length (interned : Interned engine s) : s.db.telegrams.length = s.stored.length := by
  simpa using interned.telegrams.length_eq

theorem Interned.rows (interned : Interned engine s) : s.written.map Prod.fst = s.db.telegrams :=
  List.map_fst_zip (le_of_eq interned.length)

theorem Interned.originals (interned : Interned engine s) : s.written.map Prod.snd = s.stored :=
  List.map_snd_zip (le_of_eq interned.length.symm)

theorem Interned.stores (interned : Interned engine s) :
    ∀ entry ∈ s.written, Stores engine s.db.lookup entry.1.toColumns entry.2 := by
  intro entry mem
  have rows := interned.telegrams
  rw [List.forall₂_map_left_iff] at rows
  exact List.forall₂_zip rows mem

theorem stored_of_written {entry : TelegramRow ℤ × StoredTelegram} (mem : entry ∈ s.written) :
    entry.2 ∈ s.stored := (List.of_mem_zip mem).2

/-! ## The main result -/

theorem matching_unrestricted {tzdb : TzDb} {db : Db} (free : q.Unrestricted) : matching tzdb db q = db.telegrams := by
  simp [matching, whereClause, free.startTime, free.endTime, filters_unrestricted free, selected]

theorem Interned.reads_all (interned : Interned engine s) (sorting : Sorting ℤ)
    (readable : ∀ t ∈ s.stored, Readable engine t)
    (free : q.Unrestricted) (room : s.stored.length ≤ q.limit) (limit : q.limit < 2 ^ 63) :
    ∃ result, query engine s.db q sorting = some result ∧
      result.telegrams.Perm (s.stored.map (readBack engine)) ∧ result.totalCount = s.stored.length := by
  have count : s.written.length = s.stored.length := by rw [← interned.originals, List.length_map]
  obtain ⟨arranged, arranges, reads⟩ := answer_reads sorting
    ((matching_unrestricted free).trans interned.rows.symm) interned.stores
    fun entry mem => readable entry.2 (stored_of_written mem)
  rw [query_eq (binds_unrestricted free limit)]
  refine ⟨_, reads, ?_, count⟩
  have all : slice q.offset q.limit arranged = arranged := by
    rw [slice, free.offset, List.drop_zero, List.take_of_length_le]
    rw [arranges.perm.length_eq, count]
    exact room
  rw [all, ← interned.originals, List.map_map]
  exact arranges.perm.map _

/-- One telegram whose instant is out of range makes every read of it fail. -/
theorem Interned.reads_none (interned : Interned engine s) (sorting : Sorting ℤ) (own : t ∈ s.stored)
    (unreadable : DateTime.microsToDatetime (t.timestamp.toMicros engine.tzdb) = none)
    (free : q.Unrestricted) (room : s.stored.length ≤ q.limit) :
    query engine s.db q sorting = none := by
  by_cases binds : Binds engine q
  case neg => exact if_neg binds
  rw [query_eq binds]
  rw [← interned.originals] at own
  obtain ⟨⟨row, telegram⟩, held, rfl⟩ := List.mem_map.mp own
  have stores := interned.stores _ held
  have stored : row ∈ s.db.telegrams := by
    rw [← interned.rows]
    exact List.mem_map_of_mem (f := Prod.fst) held
  have page := sorting.page_arranges q.orderDescending s.db.telegrams
  have all : slice q.offset q.limit (sorting.page q.orderDescending s.db.telegrams) =
      sorting.page q.orderDescending s.db.telegrams := by
    rw [slice, free.offset, List.drop_zero, List.take_of_length_le]
    rw [page.perm.length_eq, interned.length]
    exact room
  have fetched : Fetched.of row telegram ∈ fetchPage s.db.lookup (matching engine.tzdb s.db q) q sorting := by
    refine (sorting.result_arranges _ _).perm.mem_iff.mpr ?_
    rw [matching_unrestricted free, all]
    refine List.mem_flatMap.mpr ⟨row, page.perm.mem_iff.mpr stored, ?_⟩
    rw [fetchRow_labels stores.labels]
    exact List.mem_singleton_self _
  have fails : (Fetched.of row telegram).read = none := by
    have instant : DateTime.microsToDatetime row.timestamp = none := by
      rw [stores.timestamp]
      exact unreadable
    simp [Fetched.read, Fetched.readAs, Fetched.of, instant]
  cases read : (fetchPage s.db.lookup (matching engine.tzdb s.db q) q sorting).mapM Fetched.read with
  | none => simp [answer, read]
  | some telegrams =>
    obtain ⟨_, _, made⟩ := forall₂_mem (mapM_some_iff.mp read).flip fetched
    rw [fails] at made
    cases made

theorem Interned.summaries_read (interned : Interned engine s) (readable : ∀ t ∈ s.stored, Readable engine t) :
    ∃ summaries, getLastUniqueTelegrams s.db = some summaries ∧
      List.Forall₂ (fun row summary => ∃ t ∈ s.stored, Stores engine s.db.lookup row t ∧
        summary = readBack engine t) s.db.lastGa summaries := by
  have origin := interned.summaries
  unfold getLastUniqueTelegrams
  generalize s.db.lastGa = rows at origin
  induction rows with
  | nil => exact ⟨[], rfl, .nil⟩
  | cons row rows ih =>
    obtain ⟨t, own, stores⟩ := origin row List.mem_cons_self
    obtain ⟨summaries, read, others⟩ := ih fun other mem => origin other (List.mem_cons_of_mem _ mem)
    refine ⟨readBack engine t :: summaries, ?_, .cons ⟨t, own, stores, rfl⟩ others⟩
    have first : (Fetched.of { row with rowid := 0 } t).read = _ := read_stores stores (readable t own)
    rw [List.flatMap_cons, fetchSummary_labels stores.labels, List.singleton_append, List.mapM_cons, first, read]
    rfl

/-- **Interning never mislabels or hides a telegram.** Whatever transactions a
store has committed or rolled back, in any order and over any restarts, the
cache only has committed ids, every row of both tables resolves to the strings
of the telegram it was written from, and as long as all instants can be read
at all, an unrestricted query returns every stored telegram once, `count`
agrees with it, and no summary is dropped. -/
theorem interning_sound {events : List StoreEvent} (ran : Store.run engine events = some s) :
    (∀ pair id, s.cache pair = some id → s.db.lookup.Names pair id) ∧
      (s.db.lookup.rows.map LookupRow.pair).Nodup ∧
      List.Forall₂ (Labels s.db.lookup) (s.db.telegrams.map TelegramRow.toColumns) s.stored ∧
      (∀ row ∈ s.db.lastGa, ∃ t ∈ s.stored, Labels s.db.lookup row t) ∧
      count s.db = s.stored.length ∧
      ((∀ t ∈ s.stored, Readable engine t) →
        (∀ q sorting, q.Unrestricted → s.stored.length ≤ q.limit → q.limit < 2 ^ 63 →
          ∃ result, query engine s.db q sorting = some result ∧
            result.telegrams.Perm (s.stored.map (readBack engine)) ∧ result.totalCount = s.stored.length) ∧
        ∃ summaries, getLastUniqueTelegrams s.db = some summaries ∧
          List.Forall₂ (fun row summary => ∃ t ∈ s.stored, Stores engine s.db.lookup row t ∧
            summary = readBack engine t) s.db.lastGa summaries) := by
  have interned := run_interned ran
  refine ⟨interned.cache, s.db.lookup.pairs_unique, interned.telegrams.imp fun _ _ stores => stores.labels,
    fun row mem => ?_, interned.length, fun readable => ⟨fun q sorting free room limit => ?_, ?_⟩⟩
  · obtain ⟨t, own, stores⟩ := interned.summaries row mem
    exact ⟨t, own, stores.labels⟩
  · exact interned.reads_all sorting readable free room limit
  · exact interned.summaries_read readable

/-! ## Stores that lose a value -/

def sampleEngine : Engine := ⟨.sqlite, fun _ _ _ => 0, sampleReals⟩

def sampleTelegram : StoredTelegram where
  timestamp := .ofMicros 0
  source := "1.1.1"
  destination := "1/2/3"
  telegramtype := "GroupValueWrite"
  direction := "Incoming"

/-- One telegram stored, and a second transaction rolled back. -/
def storedOnce (t : StoredTelegram) : List StoreEvent :=
  [.begin 0 [t], .commit 0 .sqlite, .publish 0, .begin 1 [t], .rollback 1]

theorem interning_sound_once :
    ∃ s, Store.run sampleEngine (storedOnce sampleTelegram) = some s ∧ s.stored.length = 1 ∧
      s.db.lookup.rows.length = 6 ∧
      List.Forall₂ (Labels s.db.lookup) (s.db.telegrams.map TelegramRow.toColumns) s.stored :=
  ⟨_, rfl, rfl, rfl,
    (@interning_sound sampleEngine _ (storedOnce sampleTelegram) rfl).2.2.1⟩

/-- A telegram whose numeric value is not a number. -/
def withoutNumber : StoredTelegram := { sampleTelegram with valueNumeric := some .nan }

def withLongFloat : StoredTelegram := { sampleTelegram with value := .float (.number longFloat) }

def withLongInteger : StoredTelegram := { sampleTelegram with value := .int (2 ^ 63 + 1) }

/-- A DPT number of more than 64 bits. -/
def withLongDpt : StoredTelegram := { sampleTelegram with dptMain := some (2 ^ 63) }

/-- The first hour of the year 1, at an offset of one hour. -/
def beforeRange : StoredTelegram :=
  { sampleTelegram with timestamp := { wall := DateTime.minWall, tzinfo := some (.fixed 3600000000) } }

private theorem read_once (ran : Store.run sampleEngine (storedOnce t) = some s) (stored : s.stored = [t])
    (readable : Readable sampleEngine t) (sorting : Sorting ℤ) :
    ∃ result, query sampleEngine s.db {} sorting = some result ∧ result.telegrams = [readBack sampleEngine t] := by
  have free : TelegramQuery.Unrestricted {} := ⟨rfl, rfl, rfl, rfl, rfl, rfl, rfl, rfl, rfl⟩
  have all : ∀ u ∈ s.stored, Readable sampleEngine u := by
    rw [stored]
    simpa using readable
  obtain ⟨result, reads, perm, _⟩ : ∃ result, query sampleEngine s.db {} sorting = some result ∧ _ :=
    (run_interned ran).reads_all sorting all free (by simp [stored]) (by decide)
  rw [stored] at perm
  exact ⟨result, reads, List.perm_singleton.mp perm⟩

/-- What is read of a telegram that is stored, by any of its fields. -/
private theorem field_read {α : Type} (t : StoredTelegram) (field : StoredTelegram → α)
    (ran : Store.run sampleEngine (storedOnce t) = some s) (stored : s.stored = [t])
    (readable : Readable sampleEngine t) :
    ∃ s, Store.run sampleEngine (storedOnce t) = some s ∧ s.stored.map field = [field t] ∧
      ∀ sorting, ∃ result, query sampleEngine s.db {} sorting = some result ∧
        result.telegrams.map field = [field (readBack sampleEngine t)] := by
  refine ⟨s, ran, by rw [stored]; rfl, fun sorting => ?_⟩
  obtain ⟨result, reads, same⟩ := read_once ran stored readable sorting
  exact ⟨result, reads, by rw [same]; rfl⟩

private theorem instant_unread :
    ∃ s, Store.run sampleEngine (storedOnce beforeRange) = some s ∧ s.stored.length = 1 ∧
      ∀ sorting, query sampleEngine s.db {} sorting = none := by
  obtain ⟨s, ran, stored⟩ : ∃ s, Store.run sampleEngine (storedOnce beforeRange) = some s ∧
    s.stored = [beforeRange] := ⟨_, rfl, rfl⟩
  refine ⟨s, ran, by rw [stored]; rfl, fun sorting => ?_⟩
  have own : beforeRange ∈ s.stored := by
    rw [stored]
    exact List.mem_singleton_self _
  have free : TelegramQuery.Unrestricted {} := ⟨rfl, rfl, rfl, rfl, rfl, rfl, rfl, rfl, rfl⟩
  exact (run_interned ran).reads_none sorting own rfl free (by rw [stored]; decide)

/-- SQLite has no NaN, so the number is read back as missing; it rounds a
float of 16 digits and an integer of more than 64 bits in a JSON column, and
takes no such integer in another; and an instant before the year 1 is stored
but cannot be read back. -/
theorem columns_lose_values :
    (∃ s, Store.run sampleEngine (storedOnce withoutNumber) = some s ∧
      s.stored.map StoredTelegram.valueNumeric = [some .nan] ∧
      ∀ sorting, ∃ result, query sampleEngine s.db {} sorting = some result ∧
        result.telegrams.map StoredTelegram.valueNumeric = [none]) ∧
    (∃ s, Store.run sampleEngine (storedOnce withLongFloat) = some s ∧
      s.stored.map StoredTelegram.value = [.float (.number longFloat)] ∧
      ∀ sorting, ∃ result, query sampleEngine s.db {} sorting = some result ∧
        result.telegrams.map StoredTelegram.value = [.float (.number longFloatRead)]) ∧
    (∃ s, Store.run sampleEngine (storedOnce withLongInteger) = some s ∧
      s.stored.map StoredTelegram.value = [.int (2 ^ 63 + 1)] ∧
      ∀ sorting, ∃ result, query sampleEngine s.db {} sorting = some result ∧
        result.telegrams.map StoredTelegram.value = [.float (.number (2 ^ 63 : ℤ))]) ∧
    (∃ statements, storeMany sampleEngine .sqlite (fun _ => none) [withLongDpt] {} = (statements, none)) ∧
    ∃ s, Store.run sampleEngine (storedOnce beforeRange) = some s ∧ s.stored.length = 1 ∧
      ∀ sorting, query sampleEngine s.db {} sorting = none :=
  ⟨field_read withoutNumber StoredTelegram.valueNumeric rfl rfl rfl,
    field_read withLongFloat StoredTelegram.value rfl rfl rfl,
    field_read withLongInteger StoredTelegram.value rfl rfl rfl, ⟨_, rfl⟩, instant_unread⟩

end KnxTelegramStore.Sql
