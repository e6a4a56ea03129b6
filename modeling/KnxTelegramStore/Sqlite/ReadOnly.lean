import KnxTelegramStore.Sql.Encodings
import KnxTelegramStore.Sqlite.Conversion

/-!
A read-only store on a file its owner is converting. It binds its time bounds
in the one encoding that the flag speaks for, while the column may hold both:
a bound as text passes over every row that is an integer already.
`read_only_query_iff` says which queries are answered as on the converted file
all the same.
-/
namespace KnxTelegramStore.Sqlite
open EventMachine Paging Relational
open Sql (Db StringLookup TelegramRow Columns Sorting Fetched Passes filters conjunction whereClause selected
  fetchPage fetchRow matching holds_bounds passes_map selected_bare selected_sublist mem_selected fetchPage_map
  fetchPage_reads mem_fetchPage)

variable {batchRows : ℕ+} {tzdb : TzDb} {db : Db} {q : TelegramQuery} {disk disk' : Disk} {textTimestamps : Bool}
variable {start stop : Option Stamp} {row : TelegramRow Stamp}

/-- A time bound as the statements have it. -/
def bindBound (tzdb : TzDb) (textTimestamps : Bool) (bound : DateTime) : Option Stamp :=
  if textTimestamps then (textTimestamp tzdb bound).map .text else some (.integer (bound.toMicros tzdb))

/-- The rows a statement selects. `window` is SQLite's own date arithmetic. -/
def readOnlyMatching (disk : Disk) (q : TelegramQuery) (start stop : Option Stamp) (window : Stamp → Stamp → Truth) :
    List (TelegramRow Stamp) :=
  selected disk.telegrams (whereClause disk.lookup disk.telegrams q start stop window)

/-- `BaseSQLStore.query` of a read-only store. Its two statements may see the
file in different states. -/
def readOnlyQuery (tzdb : TzDb) (window : Stamp → Stamp → Truth) (textTimestamps : Bool) (atCount atPage : Disk)
    (q : TelegramQuery) (sorting : Sorting Stamp) : Option TelegramQueryResult := do
  let start ← q.startTime.mapM (bindBound tzdb textTimestamps)
  let stop ← q.endTime.mapM (bindBound tzdb textTimestamps)
  let totalCount := (readOnlyMatching atCount q start stop window).length
  let telegrams ← (fetchPage atPage.lookup (readOnlyMatching atPage q start stop window) q sorting).mapM
    (Fetched.readAs processResultValue)
  return { telegrams, totalCount, limitReached := q.offset + q.limit < totalCount }

/-! ## The file before and after -/

/-- The file before 0.15 that a conversion turns into `db`. -/
def Disk.old (db : Db) : Disk where
  lookup := db.lookup
  telegrams := db.telegrams.map (TelegramRow.map fun micros => .text (strftime micros))
  lastGa := db.lastGa.zipIdx.map fun entry =>
    { entry.1 with timestamp := .text (strftime entry.1.timestamp), rowid := entry.2 + 1 }
  timestampIndex := true
  timestampsInteger := false

/-- Rows as a file from before 0.15 has them: their instants have four-digit
years, and their rowids count from 1. -/
structure Datable (db : Db) : Prop where
  inRange : ∀ row ∈ db.telegrams, InRange row.timestamp
  rowids : ∀ row ∈ db.telegrams, 0 < row.rowid

/-- The rows of `db`, each in one of the two encodings. -/
structure Follows (db : Db) (disk : Disk) : Prop where
  lookup : disk.lookup = db.lookup
  rows : disk.telegrams.map (TelegramRow.map Stamp.instant) = db.telegrams
  encoded : ∀ row ∈ disk.telegrams, row.timestamp.isText →
    row.timestamp = .text (strftime row.timestamp.instant)

theorem Follows.mem (follows : Follows db disk) (mem : row ∈ disk.telegrams) :
    row.map Stamp.instant ∈ db.telegrams := by
  rw [← follows.rows]
  exact List.mem_map_of_mem mem

theorem convertible_old (datable : Datable db) : Convertible (.old db) where
  unflagged := rfl
  rowids := by
    intro table row mem
    cases table with
    | telegrams =>
      obtain ⟨original, own, rfl⟩ := List.mem_map.mp mem
      exact datable.rowids original own
    | lastGaTelegrams =>
      obtain ⟨entry, _, rfl⟩ := List.mem_map.mp mem
      exact Nat.succ_pos entry.2

theorem System.Sound.follows {s : System} (sound : s.Sound (.old db)) (datable : Datable db) : Follows db s.disk where
  lookup := sound.lookup
  rows := by
    have same : (Disk.old db).telegrams.map (TelegramRow.map Stamp.instant) =
        s.disk.telegrams.map (TelegramRow.map Stamp.instant) := by
      refine Sql.map_eq_of_forall₂ (sound.rows .telegrams) fun row _ row' either => ?_
      rcases either with rfl | ⟨_, rfl⟩
      · rfl
      · rfl
    rw [← same, Disk.old, List.map_map]
    refine (List.map_congr_left fun row mem => ?_).trans (List.map_id _)
    have lossless := textToMicros_strftime (datable.inRange row mem)
    simp only [Function.comp_apply, TelegramRow.map, Stamp.instant, lossless, id]
  encoded := by
    intro row mem text
    obtain ⟨original, own, rfl | ⟨_, rfl⟩⟩ := (sound.rows .telegrams).mem mem
    · obtain ⟨dated, held, rfl⟩ := List.mem_map.mp own
      simp only [TelegramRow.map, Stamp.instant, textToMicros_strftime (datable.inRange dated held)]
    · cases text

/-! ## When it answers right -/

/-- In the queried range. -/
def Inside (tzdb : TzDb) (q : TelegramQuery) (instant : ℤ) : Prop :=
  (∀ start ∈ q.startTime, start.toMicros tzdb ≤ instant) ∧ ∀ stop ∈ q.endTime, instant ≤ stop.toMicros tzdb

/-- Both bounds are in the years 1 to 9999 in UTC. -/
def Representable (tzdb : TzDb) (q : TelegramQuery) : Prop :=
  (∀ start ∈ q.startTime, InRange (start.toMicros tzdb)) ∧ ∀ stop ∈ q.endTime, InRange (stop.toMicros tzdb)

/-- No row that the filters pass is in the way as an integer: with a start
none of them is in the range, and without one all are, none of them later than
a text in the range. -/
def Undisturbed (tzdb : TzDb) (q : TelegramQuery) (disk : Disk) : Prop :=
  ∀ row ∈ disk.telegrams, Passes disk.lookup q row.toColumns → row.timestamp.isText = false →
    if q.startTime.isSome then ¬ Inside tzdb q row.timestamp.instant
    else Inside tzdb q row.timestamp.instant ∧
      ∀ other ∈ disk.telegrams, Passes disk.lookup q other.toColumns → other.timestamp.isText →
        Inside tzdb q other.timestamp.instant → row.timestamp.instant ≤ other.timestamp.instant

/-! ## Rows in two encodings -/

/-- What a statement selects, by row. -/
def Chosen (disk : Disk) (q : TelegramQuery) (start stop : Option Stamp) (row : TelegramRow Stamp) : Prop :=
  Passes disk.lookup q row.toColumns ∧ (∀ bound ∈ start, bound ≤ row.timestamp) ∧ ∀ bound ∈ stop, row.timestamp ≤ bound

/-- What it should select. -/
def Meant (tzdb : TzDb) (disk : Disk) (q : TelegramQuery) (row : TelegramRow Stamp) : Prop :=
  Passes disk.lookup q row.toColumns ∧ Inside tzdb q row.timestamp.instant

open Classical in
theorem readOnlyMatching_eq (bare : ¬ q.HasWindow) (disk : Disk) (start stop : Option Stamp)
    (window : Stamp → Stamp → Truth) :
    readOnlyMatching disk q start stop window = disk.telegrams.filter fun row => Chosen disk q start stop row := by
  rw [readOnlyMatching, selected_bare bare]
  exact List.filter_congr fun row _ => decide_eq_decide.mpr (holds_bounds row.toColumns)

open Classical in
theorem matching_eq (tzdb : TzDb) (bare : ¬ q.HasWindow) (follows : Follows db disk) :
    matching tzdb db q = (disk.telegrams.filter fun row => Meant tzdb disk q row).map
      (TelegramRow.map Stamp.instant) := by
  rw [matching, selected_bare bare, ← follows.rows, List.filter_map]
  refine congrArg _ (List.filter_congr fun row _ => decide_eq_decide.mpr ?_)
  rw [holds_bounds, passes_map, ← follows.lookup]
  simp only [Meant, Inside, TelegramRow.map, Option.mem_map, forall_exists_index, and_imp, forall_apply_eq_imp_iff₂]

/-- Either encoding is read as the instant it stands for. -/
theorem processResultValue_eq (follows : Follows db disk) (datable : Datable db) (mem : row ∈ disk.telegrams) :
    processResultValue row.timestamp = DateTime.microsToDatetime row.timestamp.instant := by
  have inside : InRange row.timestamp.instant := datable.inRange _ (follows.mem mem)
  cases stamp : row.timestamp with
  | integer micros => rfl
  | text digits =>
    have own := follows.encoded row mem (by rw [stamp]; rfl)
    rw [stamp] at own inside
    rw [own, processResultValue, fromisoformat_strftime inside, ← own]
    exact (if_pos inside).symm

/-- As long as the statements select the rows of the converted file, in an
order that is that of the instants, the query is answered as on that file. -/
theorem answered_of_rows (follows' : Follows db disk') (datable : Datable db)
    (start_ : q.startTime.mapM (bindBound tzdb textTimestamps) = some start)
    (stop_ : q.endTime.mapM (bindBound tzdb textTimestamps) = some stop) {window : Stamp → Stamp → Truth}
    (total : (readOnlyMatching disk q start stop window).length = (matching tzdb db q).length)
    (rows : (readOnlyMatching disk' q start stop window).map (TelegramRow.map Stamp.instant) = matching tzdb db q)
    (ordered : ∀ a ∈ readOnlyMatching disk' q start stop window, ∀ b ∈ readOnlyMatching disk' q start stop window,
      a.timestamp ≤ b.timestamp → a.timestamp.instant ≤ b.timestamp.instant)
    (sorting : Sorting Stamp) :
    ∃ sorting', readOnlyQuery tzdb window textTimestamps disk disk' q sorting = Sql.answer tzdb db q sorting' := by
  obtain ⟨sorting', page⟩ : ∃ sorting', fetchPage db.lookup _ q sorting' = _ :=
    fetchPage_map Stamp.instant sorting ordered
  refine ⟨sorting', ?_⟩
  have read : (fetchPage disk'.lookup (readOnlyMatching disk' q start stop window) q sorting).mapM
      (Fetched.readAs processResultValue) =
      (fetchPage db.lookup (matching tzdb db q) q sorting').mapM Fetched.read := by
    rw [← rows, page, List.mapM_map, follows'.lookup]
    refine Sql.mapM_congr_mem fun fetched mem => ?_
    have decoded := processResultValue_eq follows' datable (mem_selected (mem_fetchPage mem).1)
    simp only [Fetched.readAs, decoded]
    rfl
  simp only [readOnlyQuery, start_, stop_, Option.bind_eq_bind, Option.bind_some, total, read, Sql.answer,
    Sql.limitReached]

/-- As long as each statement selects what it should, in an order that is that
of the instants, the query is answered as on the converted file. -/
theorem answered (bare : ¬ q.HasWindow) (follows : Follows db disk) (follows' : Follows db disk') (datable : Datable db)
    (start_ : q.startTime.mapM (bindBound tzdb textTimestamps) = some start)
    (stop_ : q.endTime.mapM (bindBound tzdb textTimestamps) = some stop)
    (counts : ∀ row ∈ disk.telegrams, Chosen disk q start stop row ↔ Meant tzdb disk q row)
    (pages : ∀ row ∈ disk'.telegrams, Chosen disk' q start stop row ↔ Meant tzdb disk' q row)
    (ordered : ∀ a ∈ disk'.telegrams, ∀ b ∈ disk'.telegrams, Meant tzdb disk' q a → Meant tzdb disk' q b →
      a.timestamp ≤ b.timestamp → a.timestamp.instant ≤ b.timestamp.instant)
    (window : Stamp → Stamp → Truth) (sorting : Sorting Stamp) :
    ∃ sorting', readOnlyQuery tzdb window textTimestamps disk disk' q sorting = Sql.answer tzdb db q sorting' := by
  classical
  have own {row : TelegramRow Stamp} (mem : row ∈ readOnlyMatching disk' q start stop window) :
      row ∈ disk'.telegrams ∧ Meant tzdb disk' q row := by
    rw [readOnlyMatching_eq bare, List.mem_filter] at mem
    exact ⟨mem.1, (pages row mem.1).mp (of_decide_eq_true mem.2)⟩
  refine answered_of_rows follows' datable start_ stop_ ?_ ?_ (fun a mem b mem' => ?_) sorting
  · rw [readOnlyMatching_eq bare, matching_eq tzdb bare follows, List.length_map]
    exact congrArg _ (List.filter_congr fun row mem => decide_eq_decide.mpr (counts row mem))
  · rw [readOnlyMatching_eq bare, matching_eq tzdb bare follows']
    exact congrArg _ (List.filter_congr fun row mem => decide_eq_decide.mpr (pages row mem))
  · exact ordered a (own mem).1 b (own mem').1 (own mem).2 (own mem').2

/-! ## What the bounds select -/

theorem integer_of_converted (converted : row.timestamp.isText = false) :
    ∃ micros, row.timestamp = .integer micros := by
  cases stamp : row.timestamp with
  | integer micros => exact ⟨micros, rfl⟩
  | text digits =>
    rw [stamp] at converted
    cases converted

theorem chosen_integers (bounds : start = q.startTime.map fun bound => .integer (bound.toMicros tzdb))
    (bounds' : stop = q.endTime.map fun bound => .integer (bound.toMicros tzdb))
    (converted : row.timestamp.isText = false) :
    Chosen disk q start stop row ↔ Meant tzdb disk q row := by
  obtain ⟨micros, stamp⟩ := integer_of_converted converted
  simp [Chosen, Meant, Inside, bounds, bounds', stamp, Stamp.instant]

/-- A text row is compared with a text bound as their instants are. -/
theorem chosen_text (representable : Representable tzdb q)
    (bounds : start = q.startTime.map fun bound => .text (strftime (bound.toMicros tzdb)))
    (bounds' : stop = q.endTime.map fun bound => .text (strftime (bound.toMicros tzdb)))
    (inside : InRange row.timestamp.instant) (encoded : row.timestamp = .text (strftime row.timestamp.instant)) :
    Chosen disk q start stop row ↔ Meant tzdb disk q row := by
  have lower : (∀ bound ∈ start, bound ≤ row.timestamp) ↔
      ∀ bound ∈ q.startTime, bound.toMicros tzdb ≤ row.timestamp.instant := by
    generalize row.timestamp.instant = instant at inside encoded
    have each : ∀ bound ∈ q.startTime, Stamp.text (strftime (bound.toMicros tzdb)) ≤ row.timestamp ↔
        bound.toMicros tzdb ≤ instant := fun bound own => by
      rw [encoded, Stamp.text_le_text, strftime_le (representable.1 bound own) inside]
    rw [bounds]
    cases at_ : q.startTime with
    | none => simp
    | some bound => simpa using each bound at_
  have upper : (∀ bound ∈ stop, row.timestamp ≤ bound) ↔
      ∀ bound ∈ q.endTime, row.timestamp.instant ≤ bound.toMicros tzdb := by
    generalize row.timestamp.instant = instant at inside encoded
    have each : ∀ bound ∈ q.endTime, row.timestamp ≤ Stamp.text (strftime (bound.toMicros tzdb)) ↔
        instant ≤ bound.toMicros tzdb := fun bound own => by
      rw [encoded, Stamp.text_le_text, strftime_le inside (representable.2 bound own)]
    rw [bounds']
    cases at_ : q.endTime with
    | none => simp
    | some bound => simpa using each bound at_
  rw [Chosen, Meant, Inside, lower, upper]

/-- An integer is below every text bound. -/
theorem chosen_mixed (bounds : start = q.startTime.map fun bound => .text (strftime (bound.toMicros tzdb)))
    (bounds' : stop = q.endTime.map fun bound => .text (strftime (bound.toMicros tzdb)))
    (converted : row.timestamp.isText = false) :
    Chosen disk q start stop row ↔ Passes disk.lookup q row.toColumns ∧ q.startTime = none := by
  obtain ⟨micros, stamp⟩ := integer_of_converted converted
  rw [Chosen, bounds, bounds', stamp]
  cases q.startTime <;> simp

/-- The required strings of every row are in the lookup table. -/
def Resolved (db : Db) : Prop :=
  ∀ row ∈ db.telegrams, (∃ source, db.lookup.Names (.source, source) row.sourceId) ∧
    (∃ destination, db.lookup.Names (.destination, destination) row.destinationId) ∧
    (∃ telegramtype, db.lookup.Names (.telegramtype, telegramtype) row.telegramtypeId) ∧
    ∃ direction, db.lookup.Names (.direction, direction) row.directionId

/-- On the converted file every page can be read. -/
theorem readable (tzdb : TzDb) (datable : Datable db) (resolved : Resolved db) (sorting : Sorting ℤ) :
    ∃ telegrams, (fetchPage db.lookup (matching tzdb db q) q sorting).mapM Fetched.read = some telegrams := by
  refine Sql.exists_mapM fun fetched mem => ?_
  obtain ⟨held, made⟩ := mem_fetchPage mem
  have own : fetched.row ∈ db.telegrams := mem_selected held
  obtain ⟨⟨_, source⟩, ⟨_, destination⟩, ⟨_, telegramtype⟩, ⟨_, direction⟩⟩ := resolved _ own
  have inside : DateTime.microsToDatetime fetched.row.timestamp = _ := if_pos (datable.inRange _ own)
  simp only [fetchRow, Sql.joined_names source, Sql.joined_names destination, Sql.joined_names telegramtype,
    Sql.joined_names direction, List.bind_eq_flatMap, List.flatMap_cons, List.flatMap_nil, List.append_nil,
    List.mem_flatMap] at made
  obtain ⟨_, _, _, _, made⟩ := made
  rw [List.mem_singleton.mp made]
  exact ⟨_, by simp only [Fetched.read, Fetched.readAs, inside, Option.bind_eq_bind, Option.bind_some]; rfl⟩

/-- If all rows together are what they are on the converted file, they are of
the same instants, in an order of both columns. -/
theorem arranged_of_answered (follows : Follows db disk') (datable : Datable db) (resolved : Resolved db)
    (start_ : q.startTime.mapM (bindBound tzdb textTimestamps) = some start)
    (stop_ : q.endTime.mapM (bindBound tzdb textTimestamps) = some stop)
    (first : q.offset = 0) (room : db.telegrams.length ≤ q.limit) {window : Stamp → Stamp → Truth}
    {sorting : Sorting Stamp} {sorting' : Sorting ℤ}
    (same : readOnlyQuery tzdb window textTimestamps disk disk' q sorting = Sql.answer tzdb db q sorting') :
    ∃ arranged arranged',
      Arranges (fun row => row.timestamp) q.orderDescending (readOnlyMatching disk' q start stop window) arranged ∧
      Arranges (fun row => row.timestamp) q.orderDescending (matching tzdb db q) arranged' ∧
      arranged.map (fun row => row.timestamp.instant) = arranged'.map fun row => row.timestamp := by
  obtain ⟨telegrams, read'⟩ := readable (q := q) tzdb datable resolved sorting'
  have read : (fetchPage disk'.lookup (readOnlyMatching disk' q start stop window) q sorting).mapM
      (Fetched.readAs processResultValue) = some telegrams := by
    simp only [readOnlyQuery, start_, stop_, Option.bind_eq_bind, Option.bind_some, Sql.answer, read'] at same
    obtain ⟨telegrams', read, result⟩ := Option.bind_eq_some_iff.mp same
    have equal : telegrams' = telegrams := congrArg TelegramQueryResult.telegrams (Option.some.inj result)
    rw [read, equal]
  obtain ⟨arranged, arranges, instants⟩ := fetchPage_reads read
  obtain ⟨arranged', arranges', instants'⟩ := fetchPage_reads read'
  have whole {ρ : Type} (rows : List ρ) (few : rows.length ≤ db.telegrams.length) :
    slice q.offset q.limit rows = rows := by
    rw [slice, first, List.drop_zero, List.take_of_length_le (few.trans room)]
  have few : arranged.length ≤ db.telegrams.length := by
    rw [arranges.perm.length_eq, ← follows.rows, List.length_map]
    exact selected_sublist.length_le
  have few' : arranged'.length ≤ db.telegrams.length := by
    rw [arranges'.perm.length_eq]
    exact selected_sublist.length_le
  rw [whole _ few] at instants
  rw [whole _ few'] at instants'
  refine ⟨arranged, arranged', arranges, arranges', ?_⟩
  have left : arranged.map (fun row => row.timestamp.instant) = telegrams.map fun t => t.timestamp.toMicros tzdb := by
    refine Sql.map_eq_of_forall₂ instants fun row mem t read => ?_
    rw [processResultValue_eq follows datable (mem_selected (arranges.perm.mem_iff.mp mem))] at read
    exact (DateTime.microsToDatetime_instant read).1.symm
  rw [left]
  exact (Sql.map_eq_of_forall₂ instants' fun row _ t read => (DateTime.microsToDatetime_instant read).1.symm).symm

/-- Each of them is selected then, in an order that is that of the instants. -/
theorem agree_of_answered (follows : Follows db disk') (datable : Datable db) (resolved : Resolved db)
    (start_ : q.startTime.mapM (bindBound tzdb textTimestamps) = some start)
    (stop_ : q.endTime.mapM (bindBound tzdb textTimestamps) = some stop)
    (first : q.offset = 0) (room : db.telegrams.length ≤ q.limit) {window : Stamp → Stamp → Truth}
    {sorting : Sorting Stamp} {sorting' : Sorting ℤ}
    (same : readOnlyQuery tzdb window textTimestamps disk disk' q sorting = Sql.answer tzdb db q sorting') :
    (readOnlyMatching disk' q start stop window).length = (matching tzdb db q).length ∧
      ∀ a ∈ readOnlyMatching disk' q start stop window, ∀ b ∈ readOnlyMatching disk' q start stop window,
        a.timestamp < b.timestamp → a.timestamp.instant ≤ b.timestamp.instant := by
  obtain ⟨arranged, arranged', arranges, arranges', keys⟩ :=
    arranged_of_answered follows datable resolved start_ stop_ first room same
  refine ⟨?_, fun a mem b mem' less => ?_⟩
  · rw [← arranges.perm.length_eq, ← arranges'.perm.length_eq]
    simpa using congrArg List.length keys
  · refine arranges.agree (fun row => row.timestamp.instant) ?_ mem mem' less
    have sorted := List.pairwise_map.mpr arranges'.sorted
    rw [← keys] at sorted
    exact List.pairwise_map.mp sorted

theorem filter_iff_of_length {α : Type*} {p p' : α → Prop} [DecidablePred p] [DecidablePred p'] {xs : List α}
    (fewer : ∀ x ∈ xs, p x → p' x) (count : (xs.filter p).length = (xs.filter p').length) : ∀ x ∈ xs, p x ↔ p' x := by
  intro x mem
  have sub : (xs.filter p).Sublist (xs.filter p') := by
    have nested : xs.filter p = (xs.filter p').filter p := by
      rw [List.filter_filter]
      refine List.filter_congr fun x mem => ?_
      by_cases holds : p x
      · simp [holds, fewer x mem holds]
      · simp [holds]
    rw [nested]
    exact List.filter_sublist
  have same := sub.eq_of_length count
  have both : x ∈ xs.filter p ↔ x ∈ xs.filter p' := by rw [same]
  simpa [List.mem_filter, mem] using both

/-! ## The main result -/

theorem bindBound_integer (bound : Option DateTime) :
    bound.mapM (bindBound tzdb false) = some (bound.map fun bound => .integer (bound.toMicros tzdb)) := by
  cases bound <;> rfl

theorem bindBound_text {bound : Option DateTime} (inside : ∀ value ∈ bound, InRange (value.toMicros tzdb)) :
    bound.mapM (bindBound tzdb true) = some (bound.map fun bound => .text (strftime (bound.toMicros tzdb))) := by
  cases bound with
  | none => rfl
  | some value => simp [bindBound, textTimestamp_eq (inside value rfl)]

theorem representable_of_bound {bound : Option DateTime} {stamp : Option Stamp}
    (bound_ : bound.mapM (bindBound tzdb true) = some stamp) : ∀ value ∈ bound, InRange (value.toMicros tzdb) := by
  rintro value rfl
  by_contra outside
  simp [bindBound, textTimestamp_none outside] at bound_

theorem bounds_of_result {window : Stamp → Stamp → Truth} {sorting : Sorting Stamp} {result : TelegramQueryResult}
    (answered : readOnlyQuery tzdb window textTimestamps disk disk' q sorting = some result) :
    ∃ start stop, q.startTime.mapM (bindBound tzdb textTimestamps) = some start ∧
      q.endTime.mapM (bindBound tzdb textTimestamps) = some stop := by
  obtain ⟨start, start_, rest⟩ := Option.bind_eq_some_iff.mp answered
  obtain ⟨stop, stop_, _⟩ := Option.bind_eq_some_iff.mp rest
  exact ⟨start, stop, start_, stop_⟩

/-- In text mode, a row that is an integer already is selected where it should
be exactly if it is not in the way. -/
theorem Undisturbed.chosen (undisturbed : Undisturbed tzdb q disk') (follows : Follows db disk)
    (follows' : Follows db disk')
    (advanced : Advanced disk disk') (datable : Datable db) (representable : Representable tzdb q)
    (bounds : start = q.startTime.map fun bound => .text (strftime (bound.toMicros tzdb)))
    (bounds' : stop = q.endTime.map fun bound => .text (strftime (bound.toMicros tzdb)))
    (mem : row ∈ disk.telegrams) : Chosen disk q start stop row ↔ Meant tzdb disk q row := by
  cases text : row.timestamp.isText with
  | true =>
    exact chosen_text representable bounds bounds' (datable.inRange _ (follows.mem mem))
      (follows.encoded row mem text)
  | false =>
    rw [chosen_mixed bounds bounds' text, Meant]
    refine and_congr_right fun passes => ?_
    rw [follows.lookup, ← follows'.lookup] at passes
    have clear := undisturbed row (advanced .telegrams row mem text) passes text
    cases at_ : q.startTime with
    | none =>
      simp only [at_, Option.isSome_none, Bool.false_eq_true, if_false] at clear
      exact iff_of_true rfl clear.1
    | some bound =>
      simp only [at_, Option.isSome_some, if_true] at clear
      exact iff_of_false nofun clear

theorem Undisturbed.ordered (undisturbed : Undisturbed tzdb q disk) (follows : Follows db disk) (datable : Datable db)
    {a b : TelegramRow Stamp} (mem : a ∈ disk.telegrams) (mem' : b ∈ disk.telegrams) (meant : Meant tzdb disk q a)
    (meant' : Meant tzdb disk q b) (le : a.timestamp ≤ b.timestamp) : a.timestamp.instant ≤ b.timestamp.instant := by
  have inside := datable.inRange _ (follows.mem mem)
  have inside' := datable.inRange _ (follows.mem mem')
  cases text : a.timestamp.isText with
  | true =>
    cases text' : b.timestamp.isText with
    | true =>
      rw [follows.encoded a mem text, follows.encoded b mem' text', Stamp.text_le_text] at le
      exact (strftime_le inside inside').mp le
    | false =>
      obtain ⟨micros, stamp⟩ := integer_of_converted text'
      rw [follows.encoded a mem text, stamp] at le
      exact absurd le Stamp.not_text_le_integer
  | false =>
    cases text' : b.timestamp.isText with
    | true =>
      have clear := undisturbed a mem meant.1 text
      split at clear
      · exact absurd meant.2 clear
      · exact clear.2 b mem' meant'.1 text' meant'.2
    | false =>
      obtain ⟨micros, stamp⟩ := integer_of_converted text
      obtain ⟨micros', stamp'⟩ := integer_of_converted text'
      rw [stamp, stamp', Stamp.integer_le_integer] at le
      rw [stamp, stamp']
      exact le

/-- The converse of the two. -/
theorem undisturbed_of_agree (bare : ¬ q.HasWindow) (follows : Follows db disk) (datable : Datable db)
    (representable : Representable tzdb q)
    (bounds : start = q.startTime.map fun bound => .text (strftime (bound.toMicros tzdb)))
    (bounds' : stop = q.endTime.map fun bound => .text (strftime (bound.toMicros tzdb)))
    {window : Stamp → Stamp → Truth}
    (count : (readOnlyMatching disk q start stop window).length = (matching tzdb db q).length)
    (agree : ∀ a ∈ readOnlyMatching disk q start stop window, ∀ b ∈ readOnlyMatching disk q start stop window,
      a.timestamp < b.timestamp → a.timestamp.instant ≤ b.timestamp.instant) : Undisturbed tzdb q disk := by
  classical
  rw [readOnlyMatching_eq bare] at count agree
  rw [matching_eq tzdb bare follows, List.length_map] at count
  have text {row : TelegramRow Stamp} (mem : row ∈ disk.telegrams) (isText : row.timestamp.isText) :
      Chosen disk q start stop row ↔ Meant tzdb disk q row :=
    chosen_text representable bounds bounds' (datable.inRange _ (follows.mem mem)) (follows.encoded row mem isText)
  intro row mem passes converted
  have mixed : Chosen disk q start stop row ↔ _ := chosen_mixed bounds bounds' converted
  split
  · -- a statement that selects less than it should
    rename_i started
    intro inside
    have fewer : ∀ row ∈ disk.telegrams, Chosen disk q start stop row → Meant tzdb disk q row := by
      intro other own chosen
      cases isText : other.timestamp.isText with
      | true => exact (text own isText).mp chosen
      | false =>
        have none := ((chosen_mixed bounds bounds' isText).mp chosen).2
        rw [none] at started
        cases started
    have chosen := (filter_iff_of_length fewer count row mem).mpr ⟨passes, inside⟩
    rw [(mixed.mp chosen).2] at started
    cases started
  · -- a statement that selects more
    rename_i unbounded
    have none : q.startTime = none := by simpa using unbounded
    have more : ∀ row ∈ disk.telegrams, Meant tzdb disk q row → Chosen disk q start stop row := by
      intro other own meant
      cases isText : other.timestamp.isText with
      | true => exact (text own isText).mpr meant
      | false => exact (chosen_mixed bounds bounds' isText).mpr ⟨meant.1, none⟩
    have chosen := mixed.mpr ⟨passes, none⟩
    refine ⟨((filter_iff_of_length more count.symm row mem).mpr chosen).2, fun other own passes' isText inside => ?_⟩
    refine agree row (List.mem_filter.mpr ⟨mem, decide_eq_true chosen⟩) other
      (List.mem_filter.mpr ⟨own, decide_eq_true ((text own isText).mpr ⟨passes', inside⟩)⟩) ?_
    obtain ⟨micros, stamp⟩ := integer_of_converted converted
    rw [stamp, follows.encoded other own isText]
    exact lt_of_le_not_ge Stamp.integer_le_text Stamp.not_text_le_integer

/-- **A read-only store follows a conversion** of the file exactly in these
cases, whatever commits fall before, between and behind its flag lookup and
its two statements, and whatever pages are asked for: it knows the flag to be
set when it looks; or its bounds can be written as text and, when it reads the
page, no converted row is in the way. -/
theorem read_only_query_iff (datable : Datable db) (resolved : Resolved db)
    (bare : ¬ q.HasWindow) {before between later : List Event} {atLookup atCount atPage : System}
    (reached : run (System.step batchRows) (.of (.old db)) before = some atLookup)
    (counted : run (System.step batchRows) atLookup (.lookup :: between) = some atCount)
    (paged : run (System.step batchRows) atCount later = some atPage) :
    (∀ limit offset window sorting, ∃ sorting',
        readOnlyQuery tzdb window atLookup.textTimestamps atCount.disk atPage.disk { q with limit, offset } sorting =
          Sql.answer tzdb db { q with limit, offset } sorting') ↔
      atLookup.textTimestamps = false ∨ Representable tzdb q ∧ Undisturbed tzdb q atPage.disk := by
  have convertible := convertible_old datable
  have soundLookup := run_sound convertible (sound_of convertible) reached
  have soundCount := run_sound convertible soundLookup counted
  have soundPage := run_sound convertible soundCount paged
  have countFollows := soundCount.follows datable
  have pageFollows := soundPage.follows datable
  cases mode : atLookup.textTimestamps with
  | false =>
    refine iff_of_true (fun limit offset window sorting => ?_) (.inl rfl)
    have set : atLookup.disk.timestampsInteger = true := by
      have either : atLookup.integerTimestampsSeen = true ∨ atLookup.disk.timestampsInteger = true := by
        simpa [System.textTimestamps, or_iff_not_imp_left] using mode
      rcases either with seen | set
      · exact soundLookup.seen seen
      · exact set
    have converted := soundCount.flagged ((run_advanced counted).2 set) .telegrams
    have converted' := soundPage.flagged ((run_advanced paged).2 ((run_advanced counted).2 set)) .telegrams
    refine answered (q := { q with limit, offset }) bare countFollows pageFollows datable
      (bindBound_integer _) (bindBound_integer _) (fun row mem => chosen_integers rfl rfl (converted row mem))
      (fun row mem => chosen_integers rfl rfl (converted' row mem)) (fun a mem b mem' _ _ le => ?_) window sorting
    obtain ⟨micros, stamp⟩ := integer_of_converted (converted' a mem)
    obtain ⟨micros', stamp'⟩ := integer_of_converted (converted' b mem')
    rw [stamp, stamp', Stamp.integer_le_integer] at le
    rw [stamp, stamp']
    exact le
  | true =>
    simp only [Bool.true_eq_false, false_or]
    constructor
    · intro always
      let all : TelegramQuery := { q with limit := db.telegrams.length, offset := 0 }
      obtain ⟨sorting', same⟩ :
        ∃ sorting', readOnlyQuery tzdb (fun _ _ => none) true atCount.disk atPage.disk all .stable =
        Sql.answer tzdb db all sorting' := always _ _ _ _
      obtain ⟨telegrams, read⟩ := readable (q := all) tzdb datable resolved sorting'
      have result : ∃ result, Sql.answer tzdb db all sorting' = some result := by
        simp only [Sql.answer, read]
        exact ⟨_, rfl⟩
      obtain ⟨start, stop, start_, stop_⟩ := bounds_of_result (same.trans result.choose_spec)
      have representable : Representable tzdb q := ⟨representable_of_bound start_, representable_of_bound stop_⟩
      have bounds := Option.some.inj (start_.symm.trans (bindBound_text representable.1))
      have bounds' := Option.some.inj (stop_.symm.trans (bindBound_text representable.2))
      obtain ⟨count, agree⟩ := agree_of_answered (q := all) pageFollows datable resolved start_ stop_ rfl
        le_rfl same
      exact ⟨representable,
        undisturbed_of_agree (q := all) bare pageFollows datable representable bounds bounds' count agree⟩
    · rintro ⟨representable, undisturbed⟩ limit offset window sorting
      have advanced := (run_advanced paged).1
      have here : Advanced atPage.disk atPage.disk := fun _ _ mem _ => mem
      have undisturbed : Undisturbed tzdb { q with limit, offset } atPage.disk := undisturbed
      have representable : Representable tzdb { q with limit, offset } := representable
      exact answered (q := { q with limit, offset }) bare countFollows pageFollows datable
        (bindBound_text representable.1) (bindBound_text representable.2)
        (fun row mem => undisturbed.chosen countFollows pageFollows advanced datable representable rfl rfl mem)
        (fun row mem => undisturbed.chosen pageFollows pageFollows here datable representable rfl rfl mem)
        (fun a mem b mem' meant meant' le => undisturbed.ordered pageFollows datable mem mem' meant meant' le)
        window sorting

/-! ## One telegram at the epoch -/

private def epochRow : TelegramRow ℤ where
  rowid := 1
  timestamp := 0
  sourceId := 1
  destinationId := 2
  telegramtypeId := 3
  directionId := 4
  sourceNameId := some 5
  destinationNameId := some 6
  payload := none
  dptMain := none
  dptSub := none
  value := .null
  valueNumeric := none
  rawData := none
  dataSecure := none

def epochDb : Db where
  lookup :=
    { rows := [⟨1, .source, "1.1.1"⟩, ⟨2, .destination, "1/2/3"⟩, ⟨3, .telegramtype, "GroupValueWrite"⟩,
        ⟨4, .direction, "Incoming"⟩, ⟨5, .sourceName, ""⟩, ⟨6, .destinationName, ""⟩]
      ids_unique := by decide
      pairs_unique := by decide }
  telegrams := [epochRow]

/-- From the epoch on. -/
def sinceEpoch : TelegramQuery := { startTime := some (.ofMicros 0), limit := 1 }

theorem datable_epoch : Datable epochDb where
  inRange := by
    intro row mem
    rw [List.mem_singleton.mp mem]
    exact ⟨by decide, by decide⟩
  rowids := by
    intro row mem
    rw [List.mem_singleton.mp mem]
    decide

theorem resolved_epoch : Resolved epochDb := by
  intro row mem
  rw [List.mem_singleton.mp mem]
  refine ⟨⟨"1.1.1", ?_⟩, ⟨"1/2/3", ?_⟩, ⟨"GroupValueWrite", ?_⟩, ⟨"Incoming", ?_⟩⟩
  all_goals
    show _ ∈ epochDb.lookup.rows
    decide

/-- A reader that comes before the writer has the row. -/
theorem read_before_conversion :
    ∃ sorting', readOnlyQuery (fun _ _ _ => 0) (fun _ _ => none) true (.old epochDb) (.old epochDb) sinceEpoch .stable =
      Sql.answer (fun _ _ _ => 0) epochDb sinceEpoch sorting' := by
  have bare : ¬ sinceEpoch.HasWindow := by decide
  have reached : run (System.step conversionBatchRows) (.of (.old epochDb)) [] = some (.of (.old epochDb)) := rfl
  have counted : run (System.step conversionBatchRows) (.of (.old epochDb)) [.lookup] = some (.of (.old epochDb)) := rfl
  refine (read_only_query_iff (q := sinceEpoch) datable_epoch resolved_epoch bare reached counted reached).mpr
    (.inr ⟨⟨?_, nofun⟩, ?_⟩) 1 0 _ _
  · rintro start ⟨⟩
    exact ⟨by decide, by decide⟩
  · intro row mem _ converted
    obtain ⟨original, _, rfl⟩ := List.mem_map.mp mem
    cases converted

/-- Behind the first batch, and before the flag, the reader counts no row at
or after the epoch. The converted file has one. -/
theorem read_amid_conversion :
    ∃ s, run (System.step conversionBatchRows) (.of (.old epochDb)) [.start true, .commit, .commit] = some s ∧
      s.textTimestamps = true ∧
      (∀ sorting, ∃ result, readOnlyQuery (fun _ _ _ => 0) (fun _ _ => none) s.textTimestamps s.disk s.disk sinceEpoch
        sorting = some result ∧ result.totalCount = 0) ∧
      (∀ sorting, ∃ result, Sql.answer (fun _ _ _ => 0) epochDb sinceEpoch sorting = some result ∧
        result.totalCount = 1) := by
  have todo : convertTimestamps conversionBatchRows (.old epochDb) true =
    [.dropIndex, .convertRows .telegrams 0 50000, .setFlag] := by
    decide
  refine ⟨⟨((Disk.old epochDb).commit .dropIndex).commit (.convertRows .telegrams 0 50000), [.setFlag], false⟩, ?_, rfl,
    fun sorting => ?_, fun sorting => ?_⟩
  · simp only [run, System.step, System.of, todo, Option.bind_some]
  · generalize held : ((Disk.old epochDb).commit .dropIndex).commit (.convertRows .telegrams 0 50000) = disk
    have converted : ∀ row ∈ disk.telegrams, row.timestamp.isText = false := by
      intro row mem
      rw [← held] at mem
      refine Bool.eq_false_iff.mpr fun text => ?_
      obtain ⟨own, outside⟩ := mem_convertRows mem text
      obtain ⟨original, own, rfl⟩ := List.mem_map.mp own
      rw [List.mem_singleton.mp own] at outside
      exact outside (by decide)
    have bound : sinceEpoch.startTime.mapM (bindBound (fun _ _ _ => 0) true) = _ :=
      bindBound_text (by rintro start ⟨⟩; exact ⟨by decide, by decide⟩)
    have none_ : readOnlyMatching disk sinceEpoch (some (.text (strftime 0))) none (fun _ _ => none) = [] := by
      classical
      rw [readOnlyMatching_eq (by decide), List.filter_eq_nil_iff]
      intro row mem chosen
      have mixed : Chosen disk sinceEpoch (some (.text (strftime 0))) none row ↔ _ :=
        @chosen_mixed (fun _ _ _ => 0) _ _ _ _ _ rfl rfl (converted row mem)
      cases (mixed.mp (of_decide_eq_true chosen)).2
    have page : fetchPage disk.lookup [] sinceEpoch sorting = [] :=
      List.eq_nil_iff_forall_not_mem.mpr fun fetched mem => List.not_mem_nil (mem_fetchPage mem).1
    have mode : System.textTimestamps ⟨disk, [.setFlag], false⟩ = true := by
      rw [← held]
      rfl
    have unbounded : sinceEpoch.endTime.mapM (bindBound (fun _ _ _ => 0) true) = some none := rfl
    have bounds : (sinceEpoch.startTime.map fun bound => Stamp.text (strftime (bound.toMicros fun _ _ _ => 0))) =
      some (.text (strftime 0)) := rfl
    simp only [mode, readOnlyQuery, bound, bounds, unbounded, Option.bind_eq_bind, Option.bind_some, none_, page]
    exact ⟨_, rfl, rfl⟩
  · obtain ⟨telegrams, read⟩ := readable (q := sinceEpoch) (fun _ _ _ => 0) datable_epoch resolved_epoch sorting
    simp only [Sql.answer, read]
    exact ⟨_, rfl, rfl⟩

end KnxTelegramStore.Sqlite
