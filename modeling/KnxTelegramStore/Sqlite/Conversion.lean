import KnxTelegramStore.Lib.Runs
import KnxTelegramStore.Sql.Tables
import KnxTelegramStore.Sqlite.TextTimestamps
import Mathlib.Data.PNat.Basic

/-!
`SqliteStore._convert_timestamps_to_integers` (`backends/sqlite.py`) as the
commits it makes one after the other, and a read-only store on the same file
that looks its flag up in between. Starts of the writer may be cut off after
any commit and resumed. In every state rows are in one encoding or the other
(`Follows`), and once the flag is set none is text (`run_sound`).
-/
namespace KnxTelegramStore.Sqlite
open EventMachine
open Sql (Db StringLookup TelegramRow)

/-- The instant a value of the column stands for. -/
def Stamp.instant : Stamp → ℤ
  | .integer micros => micros
  | .text digits => textToMicros digits

def Stamp.isText : Stamp → Bool
  | .integer _ => false
  | .text _ => true

/-- The parts of a database file the conversion and its reader touch. -/
structure Disk where
  lookup : StringLookup
  telegrams : List (TelegramRow Stamp)
  lastGa : List (TelegramRow Stamp)
  /-- `ix_telegrams_timestamp` -/
  timestampIndex : Bool
  /-- the flag `timestamps_integer` -/
  timestampsInteger : Bool

inductive TableName where
  | telegrams
  | lastGaTelegrams
  deriving DecidableEq

/-- One transaction of the conversion. -/
inductive Commit where
  | dropIndex
  | convertRows (table : TableName) (low high : ℕ)
  | setFlag
  deriving DecidableEq

/-- The rows of one of the two tables. -/
def Disk.rows (disk : Disk) : TableName → List (TelegramRow Stamp)
  | .telegrams => disk.telegrams
  | .lastGaTelegrams => disk.lastGa

/-- `_HAS_TEXT_TIMESTAMPS`. -/
def hasText (disk : Disk) : Bool :=
  disk.telegrams.any (fun row => row.timestamp.isText) || disk.lastGa.any fun row => row.timestamp.isText

/-- What `_TEXT_TO_MICROS` makes of a row. -/
def asInteger (row : TelegramRow Stamp) : TelegramRow Stamp := row.map fun stamp => .integer stamp.instant

/-- `_convert_rows_to_integers`. -/
def convertRows (low high : ℕ) (rows : List (TelegramRow Stamp)) : List (TelegramRow Stamp) :=
  rows.map fun row => if row.timestamp.isText ∧ low < row.rowid ∧ row.rowid ≤ high then asInteger row else row

/-- `SELECT max(rowid)`, 0 for an empty table. -/
def maxRowid (rows : List (TelegramRow Stamp)) : ℕ := (rows.map TelegramRow.rowid).foldr max 0

/-- `_CONVERSION_BATCH_ROWS`. -/
def conversionBatchRows : ℕ+ := 50000

/-- `_convert_table_to_integers`: `range(0, max_rowid, _CONVERSION_BATCH_ROWS)`. -/
def convertTable (batchRows : ℕ+) (table : TableName) (rows : List (TelegramRow Stamp)) : List Commit :=
  (List.range ((maxRowid rows + batchRows - 1) / batchRows)).map fun batch =>
    .convertRows table (batch * batchRows) (batch * batchRows + batchRows)

/-- The commits of `_convert_timestamps_to_integers`; without `room` it raises
`InsufficientDiskSpaceError` before the first. -/
def convertTimestamps (batchRows : ℕ+) (disk : Disk) (room : Bool) : List Commit :=
  if disk.timestampsInteger then []
  else if hasText disk then
    if room then
      .dropIndex :: convertTable batchRows .telegrams disk.telegrams ++
        convertTable batchRows .lastGaTelegrams disk.lastGa ++ [.setFlag]
    else []
  else [.setFlag]

def Disk.commit (disk : Disk) : Commit → Disk
  | .dropIndex => { disk with timestampIndex := false }
  | .convertRows .telegrams low high => { disk with telegrams := convertRows low high disk.telegrams }
  | .convertRows .lastGaTelegrams low high => { disk with lastGa := convertRows low high disk.lastGa }
  | .setFlag => { disk with timestampsInteger := true }

/-! ## The writer and a reader -/

/-- The file, what the writer's start has still to commit, and the reader's
`_integer_timestamps_seen`. -/
structure System where
  disk : Disk
  todo : List Commit
  integerTimestampsSeen : Bool

inductive Event where
  /-- the writer starts, wherever its last start was cut off -/
  | start (room : Bool)
  | commit
  /-- a query of the reader looks the flag up -/
  | lookup

/-- `_text_timestamps` of a read-only store. -/
def System.textTimestamps (s : System) : Bool := !(s.integerTimestampsSeen || s.disk.timestampsInteger)

def System.step (batchRows : ℕ+) (s : System) : Event → Option System
  | .start room => some { s with todo := convertTimestamps batchRows s.disk room }
  | .commit =>
    match s.todo with
    | [] => none
    | next :: todo => some { s with disk := s.disk.commit next, todo }
  | .lookup => some { s with integerTimestampsSeen := s.integerTimestampsSeen || s.disk.timestampsInteger }

/-- Writer and reader before either has done anything. -/
def System.of (disk : Disk) : System := ⟨disk, [], false⟩

/-! ## What every state keeps -/

variable {batchRows : ℕ+} {origin disk disk' : Disk} {s s' : System} {next : Commit} {todo : List Commit}
variable {row : TelegramRow Stamp} {rows rows' : List (TelegramRow Stamp)} {low high : ℕ} {table : TableName}

/-- Each row as it was or converted. -/
def Partly (before after : List (TelegramRow Stamp)) : Prop :=
  List.Forall₂ (fun row row' => row' = row ∨ row.timestamp.isText ∧ row' = asInteger row) before after

theorem partly_refl (rows : List (TelegramRow Stamp)) : Partly rows rows :=
  List.forall₂_same.mpr fun _ _ => .inl rfl

theorem Partly.mem (partly : Partly rows rows') (mem : row ∈ rows') :
    ∃ original ∈ rows, row = original ∨ original.timestamp.isText ∧ row = asInteger original := by
  induction partly with
  | nil => cases mem
  | cons first _ ih =>
    rcases List.mem_cons.mp mem with rfl | mem
    · exact ⟨_, List.mem_cons_self, first⟩
    · obtain ⟨original, own, either⟩ := ih mem
      exact ⟨original, List.mem_cons_of_mem _ own, either⟩

theorem Partly.imp_mem {P : TelegramRow Stamp → TelegramRow Stamp → Prop} (partly : Partly rows rows')
    (each : ∀ row ∈ rows, ∀ row' ∈ rows', (row' = row ∨ row.timestamp.isText ∧ row' = asInteger row) → P row row') :
    List.Forall₂ P rows rows' := by
  induction partly with
  | nil => exact .nil
  | cons first _ ih =>
    refine .cons (each _ List.mem_cons_self _ List.mem_cons_self first) (ih fun row mem row' mem' => ?_)
    exact each row (List.mem_cons_of_mem _ mem) row' (List.mem_cons_of_mem _ mem')

theorem Partly.convertRows (partly : Partly rows rows') (low high : ℕ) : Partly rows (convertRows low high rows') := by
  refine List.forall₂_map_right_iff.mpr (List.Forall₂.imp (fun row row' either => ?_) partly)
  split
  · rename_i inside
    rcases either with rfl | ⟨_, rfl⟩
    · exact .inr ⟨inside.1, rfl⟩
    · cases inside.1
  · exact either

/-- A row that a batch has passed over. -/
theorem mem_convertRows (mem : row ∈ convertRows low high rows) (text : row.timestamp.isText) :
    row ∈ rows ∧ ¬ (low < row.rowid ∧ row.rowid ≤ high) := by
  obtain ⟨original, own, same⟩ := List.mem_map.mp mem
  split at same
  · rw [← same] at text
    cases text
  · rename_i skipped
    cases same
    exact ⟨own, fun inside => skipped ⟨text, inside⟩⟩

/-- A commit converts rows, or leaves the tables alone. -/
theorem rows_commit (disk : Disk) (next : Commit) (table : TableName) :
    (disk.commit next).rows table = disk.rows table ∨
      ∃ low high, next = .convertRows table low high ∧
        (disk.commit next).rows table = Sqlite.convertRows low high (disk.rows table) := by
  cases next with
  | dropIndex | setFlag => cases table <;> exact .inl rfl
  | convertRows own low high => cases own <;> cases table <;> first | exact .inl rfl | exact .inr ⟨low, high, rfl, rfl⟩

/-- A start either has nothing left to commit, or sets the flag last, behind a
batch for every row that is text. -/
def Pending (disk : Disk) (todo : List Commit) : Prop :=
  todo = [] ∨ ∃ batches, todo = batches ++ [.setFlag] ∧ .setFlag ∉ batches ∧
    ∀ table, ∀ row ∈ disk.rows table, row.timestamp.isText →
      ∃ low high, .convertRows table low high ∈ batches ∧ low < row.rowid ∧ row.rowid ≤ high

theorem le_maxRowid (mem : row ∈ rows) : row.rowid ≤ maxRowid rows :=
  Sql.le_foldr_max (List.mem_map_of_mem mem)

/-- The batches of a table cover it, without a gap at their boundaries. -/
theorem convertTable_covers (table : TableName) (mem : row ∈ rows) (positive : 0 < row.rowid) :
    ∃ low high, .convertRows table low high ∈ convertTable batchRows table rows ∧ low < row.rowid ∧
      row.rowid ≤ high := by
  have below := le_maxRowid mem
  have size := batchRows.pos
  have parts := Nat.div_add_mod' (row.rowid - 1) batchRows
  have rest := Nat.mod_lt (row.rowid - 1) size
  refine ⟨(row.rowid - 1) / batchRows * batchRows, _,
    List.mem_map.mpr ⟨(row.rowid - 1) / batchRows, List.mem_range.mpr ?_, rfl⟩, by omega, by omega⟩
  refine (Nat.div_lt_iff_lt_mul size).mpr ?_
  have next := Nat.lt_mul_div_succ (maxRowid rows + batchRows - 1) size
  rw [Nat.mul_add, Nat.mul_one, Nat.mul_comm] at next
  omega

theorem hasText_iff : hasText disk = true ↔ ∃ table, ∃ row ∈ disk.rows table, row.timestamp.isText := by
  rw [hasText, Bool.or_eq_true, List.any_eq_true, List.any_eq_true]
  constructor
  · rintro (text | text)
    · exact ⟨.telegrams, text⟩
    · exact ⟨.lastGaTelegrams, text⟩
  · rintro ⟨_ | _, text⟩
    · exact .inl text
    · exact .inr text

theorem pending_convertTimestamps (positive : ∀ table, ∀ row ∈ disk.rows table, 0 < row.rowid) (room : Bool) :
    Pending disk (convertTimestamps batchRows disk room) := by
  have batches : ∀ table (rows : List (TelegramRow Stamp)), Commit.setFlag ∉ convertTable batchRows table rows := by
    intro table rows mem
    obtain ⟨_, _, same⟩ := List.mem_map.mp mem
    cases same
  unfold convertTimestamps
  split_ifs with flagged text
  · exact .inl rfl
  · refine .inr ⟨_, rfl, ?_, fun table row mem _ => ?_⟩
    · simp [batches]
    · obtain ⟨low, high, own, inside⟩ : ∃ low high, .convertRows table low high ∈
          convertTable batchRows table (disk.rows table) ∧ _ := convertTable_covers table mem (positive table row mem)
      refine ⟨low, high, ?_, inside⟩
      cases table with
      | telegrams => exact List.mem_append_left _ (List.mem_cons_of_mem _ own)
      | lastGaTelegrams => exact List.mem_append_right _ own
  · exact .inl rfl
  · exact .inr ⟨[], rfl, List.not_mem_nil, fun table row mem isText =>
      absurd (hasText_iff.mpr ⟨table, row, mem, isText⟩) text⟩

/-- What holds of the writer's file and of its reader at any time. -/
structure System.Sound (origin : Disk) (s : System) : Prop where
  lookup : s.disk.lookup = origin.lookup
  rows : ∀ table, Partly (origin.rows table) (s.disk.rows table)
  pending : Pending s.disk s.todo
  flagged : s.disk.timestampsInteger → ∀ table, ∀ row ∈ s.disk.rows table, row.timestamp.isText = false
  seen : s.integerTimestampsSeen → s.disk.timestampsInteger

/-- A file whose conversion has not been completed, its rowids from 1 on. -/
structure Convertible (origin : Disk) : Prop where
  unflagged : origin.timestampsInteger = false
  rowids : ∀ table, ∀ row ∈ origin.rows table, 0 < row.rowid

theorem sound_of (convertible : Convertible origin) : (System.of origin).Sound origin where
  lookup := rfl
  rows _ := partly_refl _
  pending := .inl rfl
  flagged := fun flagged => by
    rw [System.of, convertible.unflagged] at flagged
    cases flagged
  seen := fun seen => by cases seen

theorem System.Sound.rowids (convertible : Convertible origin) (sound : s.Sound origin) :
    ∀ table, ∀ row ∈ s.disk.rows table, 0 < row.rowid := by
  intro table row mem
  obtain ⟨original, own, rfl | ⟨_, rfl⟩⟩ := (sound.rows table).mem mem
  · exact convertible.rowids table row own
  · exact convertible.rowids table original own

theorem lookup_commit (disk : Disk) (next : Commit) : (disk.commit next).lookup = disk.lookup := by
  match next with
  | .dropIndex | .setFlag | .convertRows .telegrams _ _ | .convertRows .lastGaTelegrams _ _ => rfl

theorem flag_commit (disk : Disk) (next : Commit) :
    (disk.commit next).timestampsInteger = true ↔ disk.timestampsInteger = true ∨ next = .setFlag := by
  match next with
  | .dropIndex | .setFlag | .convertRows .telegrams _ _ | .convertRows .lastGaTelegrams _ _ => simp [Disk.commit]

theorem text_of_commit (mem : row ∈ (disk.commit next).rows table) (text : row.timestamp.isText) :
    row ∈ disk.rows table := by
  rcases rows_commit disk next table with same | ⟨low, high, _, converted⟩
  · rwa [same] at mem
  · rw [converted] at mem
    exact (mem_convertRows mem text).1

/-- One commit of a start. -/
theorem Pending.commit (pending : Pending disk (next :: todo)) :
    Pending (disk.commit next) todo ∧
      (next = .setFlag → ∀ table, ∀ row ∈ disk.rows table, row.timestamp.isText = false) := by
  rcases pending with none | ⟨batches, split, apart, covered⟩
  · cases none
  cases batches with
  | nil =>
    obtain ⟨rfl, rfl⟩ := List.cons.inj split
    refine ⟨.inl rfl, fun _ table row mem => Bool.eq_false_iff.mpr fun text => ?_⟩
    obtain ⟨_, _, own, _⟩ := covered table row mem text
    cases own
  | cons first batches =>
    obtain ⟨rfl, rfl⟩ := List.cons.inj split
    refine ⟨.inr ⟨batches, rfl, fun mem => apart (List.mem_cons_of_mem _ mem), fun table row mem text => ?_⟩,
      fun flag => absurd (flag ▸ List.mem_cons_self) apart⟩
    obtain ⟨low, high, own, inside⟩ := covered table row (text_of_commit mem text) text
    refine ⟨low, high, (List.mem_cons.mp own).resolve_left fun same => ?_, inside⟩
    -- its batch is the one that has just been committed
    rcases rows_commit disk next table with kept | ⟨low', high', same', converted⟩
    · rw [← same] at kept mem
      have converted : (disk.commit (.convertRows table low high)).rows table =
          Sqlite.convertRows low high (disk.rows table) := by cases table <;> rfl
      rw [converted] at mem
      exact (mem_convertRows mem text).2 inside
    · rw [converted] at mem
      cases same.trans same'
      exact (mem_convertRows mem text).2 inside

theorem System.Sound.step (convertible : Convertible origin) (sound : s.Sound origin) {event : Event}
    (taken : s.step batchRows event = some s') : s'.Sound origin := by
  cases event with
  | start room =>
    cases taken
    exact ⟨sound.lookup, sound.rows, pending_convertTimestamps (sound.rowids convertible) room,
      sound.flagged, sound.seen⟩
  | lookup =>
    cases taken
    refine ⟨sound.lookup, sound.rows, sound.pending, sound.flagged, fun seen => ?_⟩
    rcases Bool.or_eq_true_iff.mp seen with before | now
    · exact sound.seen before
    · exact now
  | commit =>
    obtain ⟨disk, todo, seen⟩ := s
    cases todo with
    | nil => cases taken
    | cons next todo =>
      cases taken
      obtain ⟨pending, last⟩ := Pending.commit sound.pending
      refine ⟨(lookup_commit disk next).trans sound.lookup, fun table => ?_, pending, fun flagged table row mem => ?_,
        fun before => (flag_commit disk next).mpr (.inl (sound.seen before))⟩
      · rcases rows_commit disk next table with same | ⟨low, high, _, converted⟩
        · exact same ▸ sound.rows table
        · exact converted ▸ (sound.rows table).convertRows low high
      · refine Bool.eq_false_iff.mpr fun text => ?_
        have own := text_of_commit mem text
        rcases (flag_commit disk next).mp flagged with before | now
        · rw [sound.flagged before table row own] at text
          cases text
        · rw [last now table row own] at text
          cases text

/-- Whatever the order of starts, commits and lookups. -/
theorem run_sound (convertible : Convertible origin) {events : List Event} (sound : s.Sound origin)
    (ran : run (System.step batchRows) s events = some s') : s'.Sound origin :=
  run_keeps (I := System.Sound origin) (fun _ _ _ sound taken => sound.step convertible taken) sound ran

/-- Rows that are no text any more. -/
def Advanced (disk disk' : Disk) : Prop :=
  ∀ table, ∀ row ∈ disk.rows table, row.timestamp.isText = false → row ∈ disk'.rows table

theorem advanced_commit (disk : Disk) (next : Commit) : Advanced disk (disk.commit next) := by
  intro table row mem converted
  rcases rows_commit disk next table with same | ⟨low, high, _, rewritten⟩
  · exact same ▸ mem
  · rw [rewritten]
    refine List.mem_map.mpr ⟨row, mem, if_neg fun text => ?_⟩
    rw [converted] at text
    cases text.1

/-- A row that has been converted stays as it is, and so does the flag. -/
theorem run_advanced {events : List Event} (ran : run (System.step batchRows) s events = some s') :
    Advanced s.disk s'.disk ∧ (s.disk.timestampsInteger → s'.disk.timestampsInteger) := by
  refine run_keeps (I := fun now => Advanced s.disk now.disk ∧
    (s.disk.timestampsInteger → now.disk.timestampsInteger)) ?_ ⟨fun _ _ mem _ => mem, id⟩ ran
  rintro now event next ⟨advanced, flag⟩ taken
  cases event with
  | start room | lookup =>
    cases taken
    exact ⟨advanced, flag⟩
  | commit =>
    obtain ⟨disk, todo, seen⟩ := now
    cases todo with
    | nil => cases taken
    | cons commit todo =>
      cases taken
      exact ⟨fun table row mem converted => advanced_commit disk commit table row
        (advanced table row mem converted) converted,
        fun before => (flag_commit disk commit).mpr (.inl (flag before))⟩

/-! ## The conversion as a whole -/

/-- The row with `datetime_to_micros` of its text, read by `fromisoformat` as
UTC. -/
def Converted (tzdb : TzDb) (row row' : TelegramRow Stamp) : Prop :=
  match row.timestamp with
  | .integer _ => row' = row
  | .text digits => ∃ read, fromisoformat digits = some read ∧
    row' = row.map fun _ => .integer (DateTime.toMicros tzdb { read with tzinfo := some .utc })

theorem converted_asInteger (tzdb : TzDb) {digits : List Char} {text : IsoText} (stamp : row.timestamp = .text digits)
    (iso : digits = text.digits) : Converted tzdb row (asInteger row) := by
  obtain ⟨read, reads⟩ := text.reads
  have same : textToMicros digits = DateTime.toMicros tzdb { read with tzinfo := some .utc } := by
    rw [iso, textToMicros_fromisoformat reads]
    simp [DateTime.toMicros, TzInfo.utc, TzInfo.utcoffset]
  rw [Converted, stamp]
  refine ⟨read, iso ▸ reads, ?_⟩
  simp only [asInteger, TelegramRow.map, stamp, Stamp.instant, same]

/-- The flag is set, or among the commits to come. -/
def System.Flagging (s : System) : Prop := s.disk.timestampsInteger = true ∨ .setFlag ∈ s.todo

theorem flagging_start {room : Bool} (admitted : room = true ∨ hasText s.disk = false)
    (taken : s.step batchRows (.start room) = some s') : s'.Flagging := by
  cases taken
  unfold System.Flagging convertTimestamps
  split_ifs with flagged text
  · exact .inl flagged
  · exact .inr (List.mem_append_right _ (List.mem_singleton_self _))
  · rename_i raised
    rcases admitted with rfl | none
    · exact absurd rfl raised
    · rw [none] at text
      cases text
  · exact .inr (List.mem_singleton_self _)

theorem System.Flagging.commit (flagging : s.Flagging) (taken : s.step batchRows .commit = some s') : s'.Flagging := by
  obtain ⟨disk, todo, seen⟩ := s
  cases todo with
  | nil => cases taken
  | cons commit todo =>
    cases taken
    rcases flagging with before | pending
    · exact .inl ((flag_commit disk commit).mpr (.inl before))
    · rcases List.mem_cons.mp pending with now | later
      · exact .inl ((flag_commit disk commit).mpr (.inr now.symm))
      · exact .inr later

theorem System.Flagging.ended (flagging : s.Flagging) (ended : s.todo = []) : s.disk.timestampsInteger = true := by
  refine flagging.resolve_right ?_
  rw [ended]
  exact List.not_mem_nil

/-- A start that has not raised sets the flag before it ends. -/
theorem completed_flagged {room : Bool} {n : ℕ} (admitted : room = true ∨ hasText s.disk = false)
    (ran : run (System.step batchRows) s (.start room :: List.replicate n .commit) = some s') (ended : s'.todo = []) :
    s'.disk.timestampsInteger = true := by
  obtain ⟨started, taken, ran⟩ := run_cons.mp ran
  have commits : Along (System.step batchRows) (fun _ event => event = .commit) started (List.replicate n .commit) :=
    along_of_mem fun event mem _ => List.eq_of_mem_replicate mem
  have flagging : s'.Flagging := run_invariant (fun now event next flagging same taken => by
    rw [same] at taken
    exact flagging.commit taken) (flagging_start admitted taken) commits ran
  exact flagging.ended ended

/-- **The conversion is lossless, complete and resumable.** Wherever starts are
cut off, the flag is set only on a file without texts, every row is its
original or exactly what Python reads its text as, and a start that runs to
its end leaves the latter alone. -/
theorem conversion_lossless (tzdb : TzDb) (convertible : Convertible origin)
    (iso : ∀ table, ∀ row ∈ origin.rows table, ∀ digits, row.timestamp = .text digits →
      ∃ text : IsoText, digits = text.digits)
    {events : List Event} (ran : run (System.step batchRows) (.of origin) events = some s) :
    (s.disk.timestampsInteger = true → ∀ table, ∀ row ∈ s.disk.rows table, row.timestamp.isText = false) ∧
      (∀ table, List.Forall₂ (fun row row' => row' = row ∨ Converted tzdb row row') (origin.rows table)
        (s.disk.rows table)) ∧
      ∀ room n s', room = true ∨ hasText s.disk = false →
        run (System.step batchRows) s (.start room :: List.replicate n .commit) = some s' → s'.todo = [] →
        s'.disk.timestampsInteger = true ∧
          ∀ table, List.Forall₂ (Converted tzdb) (origin.rows table) (s'.disk.rows table) := by
  have sound := run_sound convertible (sound_of convertible) ran
  have written : ∀ table, ∀ row ∈ origin.rows table, row.timestamp.isText → Converted tzdb row (asInteger row) := by
    intro table row own text
    cases stamp : row.timestamp with
    | integer _ =>
      rw [stamp] at text
      cases text
    | text digits =>
      obtain ⟨text, same⟩ := iso table row own digits stamp
      exact converted_asInteger tzdb stamp same
  refine ⟨sound.flagged, fun table => (sound.rows table).imp_mem fun row own row' _ either => ?_,
    fun room n s' admitted ran' ended => ?_⟩
  · rcases either with same | ⟨text, rfl⟩
    · exact .inl same
    · exact .inr (written table row own text)
  · have flag := completed_flagged admitted ran' ended
    have sound' := run_sound convertible sound ran'
    refine ⟨flag, fun table => (sound'.rows table).imp_mem fun row own row' own' either => ?_⟩
    rcases either with rfl | ⟨text, rfl⟩
    · have none := sound'.flagged flag table row' own'
      cases stamp : row'.timestamp with
      | integer _ =>
        rw [Converted, stamp]
      | text digits =>
        rw [stamp] at none
        cases none
    · exact written table row own text

/-- Half a second before the epoch, with one digit of a fraction. -/
def halfSecond : IsoText where
  year := 1969
  month := 12
  day := 31
  hour := 23
  minute := 59
  second := 59
  separator := 'T'
  fraction := ['5']
  date := by decide
  year_lt := by decide
  time := by decide
  separator_eq := IsoText.letter_separates
  fraction_le := by decide
  fraction_digits := by decide

def halfSecondDisk : Disk where
  lookup := {}
  telegrams :=
    [{ rowid := 3, timestamp := .text halfSecond.digits, sourceId := 1, destinationId := 2, telegramtypeId := 3
       directionId := 4, sourceNameId := none, destinationNameId := none, payload := none, dptMain := none
       dptSub := none, value := .null, valueNumeric := none, rawData := none, dataSecure := none }]
  lastGa := []
  timestampIndex := true
  timestampsInteger := false

theorem half_second_convertible : Convertible halfSecondDisk := by
  refine ⟨rfl, fun table row mem => ?_⟩
  cases table with
  | telegrams =>
    rw [List.mem_singleton.mp mem]
    decide
  | lastGaTelegrams => cases mem

/-- In batches of two rows, the first of which is cut off from the second. -/
theorem half_second_converted :
    ∃ s s', run (System.step 2) (.of halfSecondDisk) [.start true, .commit, .commit] = some s ∧
      run (System.step 2) s (.start true :: List.replicate 4 .commit) = some s' ∧
      s'.disk.timestampsInteger = true ∧
      List.Forall₂ (Converted fun _ _ _ => 0) halfSecondDisk.telegrams s'.disk.telegrams := by
  have todo : convertTimestamps 2 halfSecondDisk true =
      [.dropIndex, .convertRows .telegrams 0 2, .convertRows .telegrams 2 4, .setFlag] := by decide
  have passed : convertRows 0 2 halfSecondDisk.telegrams = halfSecondDisk.telegrams := rfl
  let cutOff : Disk := { halfSecondDisk with timestampIndex := false }
  have again : convertTimestamps 2 cutOff true = convertTimestamps 2 halfSecondDisk true := rfl
  have ran : run (System.step 2) (.of halfSecondDisk) [.start true, .commit, .commit] =
      some ⟨cutOff, [.convertRows .telegrams 2 4, .setFlag], false⟩ := by
    simp only [run, System.step, System.of, todo, Option.bind_some]
    rfl
  have ran' : run (System.step 2) ⟨cutOff, [.convertRows .telegrams 2 4, .setFlag], false⟩
      (.start true :: List.replicate 4 .commit) =
      some ⟨((cutOff.commit .dropIndex).commit (.convertRows .telegrams 2 4)).commit .setFlag, [], false⟩ := by
    simp only [run, System.step, again, todo, List.replicate, Option.bind_some]
    rfl
  have iso : ∀ table, ∀ row ∈ halfSecondDisk.rows table, ∀ digits, row.timestamp = .text digits →
      ∃ text : IsoText, digits = text.digits := by
    intro table row mem digits stamp
    cases table with
    | telegrams =>
      rw [List.mem_singleton.mp mem] at stamp
      exact ⟨halfSecond, (Stamp.text.inj stamp).symm⟩
    | lastGaTelegrams => cases mem
  obtain ⟨flag, rows⟩ := (conversion_lossless (fun _ _ _ => 0) half_second_convertible iso ran).2.2 true 4 _
    (.inl rfl) ran' rfl
  exact ⟨_, _, ran, ran', flag, rows .telegrams⟩

end KnxTelegramStore.Sqlite
