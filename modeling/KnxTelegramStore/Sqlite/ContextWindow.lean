import KnxTelegramStore.Sqlite.ReadOnly
import KnxTelegramStore.Sqlite.TimestampOrder

/-!
The context window on a file that is not converted yet (`BaseSQLStore.query`).
SQLite moves a pivot's text by whole milliseconds and prints three digits of
the fraction, and the result is compared with texts of six. So the window
reaches from one edge in whole milliseconds up to the other, which it leaves
out (`holds_window`). `text_window_iff` says when that selects the rows of the
converted file.
-/
namespace KnxTelegramStore.Sqlite
open FixedWidth Relational Paging
open Sql (Db TelegramRow Columns Sorting Passes filters conjunction whereClause selected matching
    holds_bounds passes_map
  idFilter dptConds mem_selected)

variable {tzdb : TzDb} {db : Db} {q : TelegramQuery} {ms n : ℤ}

/-! ## Texts to the millisecond -/

/-- `_SQLITE_TEXT_MS`. -/
def sqliteTextMs : Layout := [(4, ['-']), (2, ['-']), (2, [' ']), (2, [':']), (2, [':']), (2, ['.']), (3, [])]

/-- The text of a whole millisecond. -/
def strftimeMs (ms : ℤ) : List Char :=
  match Calendar.fields (ms * 1000 - DateTime.minWall).toNat with
  | [year, month, day, hour, minute, second, micro] =>
    render sqliteTextMs [year, month, day, hour, minute, second, micro / 1000]
  | _ => []

theorem length_strftimeMs (ms : ℤ) : (strftimeMs ms).length = 23 := by
  obtain ⟨year, month, day, hour, minute, second, micro, fields, _⟩ :=
    Calendar.fields_eq (ms * 1000 - DateTime.minWall).toNat
  rw [strftimeMs, fields]
  rfl

/-- The stored text of an instant goes on where that of its millisecond ends. -/
theorem strftime_eq_append (inside : InRange n) :
    strftime n = strftimeMs (n / 1000) ++ digits 3 (n - DateTime.minWall).toNat := by
  obtain ⟨micros, count⟩ := Int.eq_ofNat_of_zero_le (sub_nonneg.mpr inside.1)
  have whole : (n / 1000 * 1000 - DateTime.minWall).toNat = micros / 1000 * 1000 := by
    unfold DateTime.minWall at *
    omega
  have same : micros / 1000 * 1000 / 86400000000 = micros / 86400000000 := by omega
  have hour : micros / 1000 * 1000 % 86400000000 / 3600000000 = micros % 86400000000 / 3600000000 := by omega
  have minute : micros / 1000 * 1000 % 86400000000 / 60000000 = micros % 86400000000 / 60000000 := by omega
  have second : micros / 1000 * 1000 % 86400000000 / 1000000 = micros % 86400000000 / 1000000 := by omega
  have milli : micros / 1000 * 1000 % 86400000000 % 1000000 / 1000 = micros % 86400000000 % 1000000 / 10 ^ 3 := by omega
  have micro : digits 3 (micros % 86400000000 % 1000000) = digits 3 micros := by
    rw [← digits_mod 3 (micros % 86400000000 % 1000000), ← digits_mod 3 micros]
    congr 1
    omega
  rw [strftime, strftimeMs, count, Int.toNat_natCast, whole]
  simp only [Calendar.fields, Calendar.dateFields, Calendar.timeFields, List.cons_append, List.nil_append, same, hour,
    minute, second, milli, sqliteText, sqliteTextMs, render, List.append_nil]
  rw [digits_add 3 3, micro]
  simp only [List.append_assoc, List.cons_append]

theorem strftimeMs_lt {ms' : ℤ} (first : InRange (ms * 1000)) (second : InRange (ms' * 1000)) (less : ms < ms') :
    strftimeMs ms < strftimeMs ms' := by
  have whole (ms : ℤ) : ms * 1000 / 1000 = ms := by omega
  have texts : strftime (ms * 1000) < strftime (ms' * 1000) := (strftime_lt first second).mpr (by omega)
  have zeros : digits 3 (ms * 1000 - DateTime.minWall).toNat = digits 3 (ms' * 1000 - DateTime.minWall).toNat := by
    rw [← digits_mod 3 (ms * 1000 - DateTime.minWall).toNat, ← digits_mod 3 (ms' * 1000 - DateTime.minWall).toNat]
    congr 1
    unfold InRange DateTime.minWall at *
    omega
  rw [strftime_eq_append first, strftime_eq_append second, whole, whole, zeros] at texts
  rcases lt_trichotomy (strftimeMs ms) (strftimeMs ms') with before | same | after
  · exact before
  · rw [same] at texts
    exact absurd texts (lt_irrefl _)
  · exact absurd texts (append_lt (by simp only [length_strftimeMs]) (.inl after)).asymm

/-- The text of a millisecond comes before those of the instants in it. -/
theorem strftimeMs_lt_strftime (whole : InRange (ms * 1000)) (inside : InRange n) :
    strftimeMs ms < strftime n ↔ ms * 1000 ≤ n := by
  have floor : InRange (n / 1000 * 1000) := by
    unfold InRange DateTime.minWall DateTime.maxWall at *
    omega
  have sizes : (strftimeMs ms).length = (strftimeMs (n / 1000)).length := by simp only [length_strftimeMs]
  rw [strftime_eq_append inside]
  constructor
  · intro before
    by_contra later
    have after := strftimeMs_lt floor whole (by omega)
    have greater : strftimeMs (n / 1000) ++ digits 3 (n - DateTime.minWall).toNat < strftimeMs ms ++ [] :=
      append_lt sizes.symm (.inl after)
    rw [List.append_nil] at greater
    exact greater.asymm before
  · intro reached
    have before : strftimeMs ms ++ [] < strftimeMs (n / 1000) ++ digits 3 (n - DateTime.minWall).toNat := by
      refine append_lt sizes ?_
      rcases (show ms ≤ n / 1000 by omega).lt_or_eq with less | rfl
      · exact .inl (strftimeMs_lt whole floor less)
      · exact .inr ⟨rfl, List.nil_lt_cons _ _⟩
    rwa [List.append_nil] at before

/-! ## SQLite's date arithmetic -/

/-- SQLite's date functions, on whole milliseconds. -/
structure SqliteDates where
  /-- What a stored text is read as. -/
  millis : ℤ → ℤ
  nearest : ∀ n, |n - millis n * 1000| ≤ 500
  /-- `strftime(_SQLITE_TEXT_MS, ...)`; `none` is NULL. -/
  strftime : ℤ → Option (List Char)
  years : ∀ ms, InRange (ms * 1000) → strftime ms = some (strftimeMs ms)
  /-- There is no date behind the year 9999. -/
  later : ∀ ms, DateTime.maxWall < ms * 1000 → strftime ms = none
  /-- A year of zeros or with a sign sorts first, if there is one. -/
  earlier : ∀ ms, ms * 1000 < DateTime.minWall → ∀ text ∈ strftime ms, ∀ n, InRange n → text < Sqlite.strftime n

variable {d : SqliteDates}

namespace SqliteDates

/-- `strftime(_SQLITE_TEXT_MS, pivots.timestamp, ...)`. An unconverted file has
no integers. -/
def moved (d : SqliteDates) (pivot : Stamp) (deltaMs : ℤ) : Option Stamp :=
  match pivot with
  | .text digits => (d.strftime (d.millis (textToMicros digits) + deltaMs)).map .text
  | .integer _ => none

/-- `cond` of the text window. -/
def window (d : SqliteDates) (q : TelegramQuery) (timestamp pivot : Stamp) : Truth :=
  and ((d.moved pivot (-q.deltaBeforeMs)).map fun bound => decide (bound ≤ timestamp))
    ((d.moved pivot q.deltaAfterMs).map fun bound => decide (timestamp ≤ bound))

/-- SQLite can print both edges of a pivot's window. -/
def Prints (d : SqliteDates) (q : TelegramQuery) (pivot : ℤ) : Prop :=
  (d.strftime (d.millis pivot - q.deltaBeforeMs)).isSome ∧ (d.strftime (d.millis pivot + q.deltaAfterMs)).isSome

/-- From one edge in whole milliseconds up to the other. -/
def Reaches (d : SqliteDates) (q : TelegramQuery) (pivot timestamp : ℤ) : Prop :=
  d.Prints q pivot ∧ (d.millis pivot - q.deltaBeforeMs) * 1000 ≤ timestamp ∧
    timestamp < (d.millis pivot + q.deltaAfterMs) * 1000

/-- A printed text is never a stored one, and comes before those of its
millisecond on. -/
theorem lt_strftime {text : List Char} (printed : text ∈ d.strftime ms) (inside : InRange n) :
    text ≠ Sqlite.strftime n ∧ (text < Sqlite.strftime n ↔ ms * 1000 ≤ n) := by
  rcases lt_or_ge (ms * 1000) DateTime.minWall with early | notEarly
  · have before := d.earlier ms early text printed n inside
    exact ⟨before.ne, iff_of_true before (early.le.trans inside.1)⟩
  rcases lt_or_ge DateTime.maxWall (ms * 1000) with late | notLate
  · rw [d.later ms late] at printed
    cases printed
  · rw [d.years ms ⟨notEarly, notLate⟩] at printed
    cases printed
    refine ⟨fun same => ?_, strftimeMs_lt_strftime ⟨notEarly, notLate⟩ inside⟩
    have sizes := congrArg List.length same
    rw [length_strftimeMs, length_strftime] at sizes
    cases sizes

theorem le_strftime {text : List Char} (printed : text ∈ d.strftime ms) (inside : InRange n) :
    text ≤ Sqlite.strftime n ↔ ms * 1000 ≤ n := by
  obtain ⟨differ, order⟩ := lt_strftime printed inside
  rw [differ.le_iff_lt, order]

theorem strftime_le {text : List Char} (printed : text ∈ d.strftime ms) (inside : InRange n) :
    Sqlite.strftime n ≤ text ↔ n < ms * 1000 := by
  rw [← not_lt, (lt_strftime printed inside).2, not_le]

/-- What the comparison of texts comes to. -/
theorem holds_window {pivot timestamp : ℤ} (inside : InRange pivot) (inside' : InRange timestamp) :
    Holds (d.window q (.text (Sqlite.strftime timestamp)) (.text (Sqlite.strftime pivot))) ↔
      d.Reaches q pivot timestamp := by
  have lossless := textToMicros_strftime inside
  have bounded (ms : ℤ) (p : Stamp → Prop) [DecidablePred p] (reached : Prop)
      (order : ∀ text ∈ d.strftime ms, p (.text text) ↔ reached) :
      Holds (((d.strftime ms).map Stamp.text).map fun bound => decide (p bound)) ↔
        (d.strftime ms).isSome ∧ reached := by
    cases printed : d.strftime ms with
    | none => simp [Holds]
    | some text => simp [Holds, order text printed]
  rw [window, holds_and, moved, moved, lossless, ← sub_eq_add_neg,
    bounded _ (· ≤ .text (Sqlite.strftime timestamp)) _ fun text printed => by
      rw [Stamp.text_le_text]
      exact le_strftime printed inside',
    bounded _ (.text (Sqlite.strftime timestamp) ≤ ·) _ fun text printed => by
      rw [Stamp.text_le_text]
      exact strftime_le printed inside']
  exact and_and_and_comm

/-- In its own window a pivot is only by a delta, or by the way it is rounded. -/
theorem holds_own_window {pivot : ℤ} (inside : InRange pivot) (before : 0 ≤ q.deltaBeforeMs)
    (after : 0 ≤ q.deltaAfterMs) :
    Holds (d.window q (.text (Sqlite.strftime pivot)) (.text (Sqlite.strftime pivot))) ↔
      d.Prints q pivot ∧ (0 < q.deltaBeforeMs ∨ d.millis pivot * 1000 ≤ pivot) ∧
        (0 < q.deltaAfterMs ∨ pivot < d.millis pivot * 1000) := by
  have near := abs_le.mp (d.nearest pivot)
  rw [holds_window inside inside, Reaches]
  refine and_congr_right fun _ => ?_
  omega

end SqliteDates

/-! ## When it is the window of the converted file -/

/-- A row that the filters select. -/
def Pivot (tzdb : TzDb) (db : Db) (q : TelegramQuery) (pivot : TelegramRow ℤ) : Prop :=
  pivot ∈ db.telegrams ∧ Passes db.lookup q pivot.toColumns ∧ Inside tzdb q pivot.timestamp

/-- In the window of a pivot by integer microseconds. -/
def Within (q : TelegramQuery) (pivot timestamp : ℤ) : Prop :=
  pivot - q.deltaBeforeMs * 1000 ≤ timestamp ∧ timestamp ≤ pivot + q.deltaAfterMs * 1000

/-- There is a context window, and a filter that selects its pivots. -/
def Windowed (q : TelegramQuery) : Prop :=
  q.HasWindow ∧ (q.sources ≠ [] ∨ q.destinations ≠ [] ∨ q.telegramTypes ≠ [] ∨ q.directions ≠ [] ∨
    q.dptMains ≠ [] ∨ q.dpts ≠ [] ∨ q.startTime.isSome ∨ q.endTime.isSome)

/-- Inside an edge of a pivot's window but not inside that edge in whole
milliseconds, or in a window with an edge that SQLite cannot print. -/
def Missed (d : SqliteDates) (q : TelegramQuery) (pivot timestamp : ℤ) : Prop :=
  pivot - q.deltaBeforeMs * 1000 ≤ timestamp ∧ timestamp < (d.millis pivot - q.deltaBeforeMs) * 1000 ∨
    (d.millis pivot + q.deltaAfterMs) * 1000 ≤ timestamp ∧ timestamp ≤ pivot + q.deltaAfterMs * 1000 ∨
    ¬ d.Prints q pivot ∧ Within q pivot timestamp

/-- Outside an edge of a pivot's window but inside that edge in whole
milliseconds. -/
def Strays (d : SqliteDates) (q : TelegramQuery) (pivot timestamp : ℤ) : Prop :=
  d.Prints q pivot ∧
    ((d.millis pivot - q.deltaBeforeMs) * 1000 ≤ timestamp ∧ timestamp < pivot - q.deltaBeforeMs * 1000 ∨
      pivot + q.deltaAfterMs * 1000 < timestamp ∧ timestamp < (d.millis pivot + q.deltaAfterMs) * 1000)

/-- No row lies between an edge of a window and that edge in whole
milliseconds, unless the window of another pivot makes up for it. -/
structure EdgesClear (tzdb : TzDb) (d : SqliteDates) (db : Db) (q : TelegramQuery) : Prop where
  missed : ∀ pivot row, Pivot tzdb db q pivot → row ∈ db.telegrams → Missed d q pivot.timestamp row.timestamp →
    ∃ other, Pivot tzdb db q other ∧ d.Reaches q other.timestamp row.timestamp
  strays : ∀ pivot row, Pivot tzdb db q pivot → row ∈ db.telegrams → Strays d q pivot.timestamp row.timestamp →
    ∃ other, Pivot tzdb db q other ∧ Within q other.timestamp row.timestamp

theorem missed_iff (windowed : q.HasWindow) (before : 0 ≤ q.deltaBeforeMs) (after : 0 ≤ q.deltaAfterMs)
    (pivot timestamp : ℤ) :
    Missed d q pivot timestamp ↔ Within q pivot timestamp ∧ ¬ d.Reaches q pivot timestamp := by
  have near := abs_le.mp (d.nearest pivot)
  unfold TelegramQuery.HasWindow at windowed
  unfold Missed Within SqliteDates.Reaches
  by_cases prints : d.Prints q pivot
  · simp only [prints, not_true_eq_false, false_and, or_false, true_and]
    omega
  · simp only [prints, not_false_eq_true, false_and, true_and, and_true]
    omega

theorem strays_iff (windowed : q.HasWindow) (before : 0 ≤ q.deltaBeforeMs) (after : 0 ≤ q.deltaAfterMs)
    (pivot timestamp : ℤ) :
    Strays d q pivot timestamp ↔ d.Reaches q pivot timestamp ∧ ¬ Within q pivot timestamp := by
  have near := abs_le.mp (d.nearest pivot)
  unfold TelegramQuery.HasWindow at windowed
  unfold Strays Within SqliteDates.Reaches
  rw [and_assoc]
  refine and_congr_right fun _ => ?_
  omega

/-- Clear edges are all it takes. -/
theorem edgesClear_iff (windowed : q.HasWindow) (before : 0 ≤ q.deltaBeforeMs) (after : 0 ≤ q.deltaAfterMs) :
    EdgesClear tzdb d db q ↔ ∀ row ∈ db.telegrams,
      (∃ pivot, Pivot tzdb db q pivot ∧ d.Reaches q pivot.timestamp row.timestamp) ↔
        ∃ pivot, Pivot tzdb db q pivot ∧ Within q pivot.timestamp row.timestamp := by
  constructor
  · intro clear row mem
    constructor
    · rintro ⟨pivot, own, reaches⟩
      by_cases within : Within q pivot.timestamp row.timestamp
      · exact ⟨pivot, own, within⟩
      · exact clear.strays pivot row own mem ((strays_iff windowed before after _ _).mpr ⟨reaches, within⟩)
    · rintro ⟨pivot, own, within⟩
      by_cases reaches : d.Reaches q pivot.timestamp row.timestamp
      · exact ⟨pivot, own, reaches⟩
      · exact clear.missed pivot row own mem ((missed_iff windowed before after _ _).mpr ⟨within, reaches⟩)
  · intro same
    constructor
    · intro pivot row own mem missed
      exact (same row mem).mpr ⟨pivot, own, ((missed_iff windowed before after _ _).mp missed).1⟩
    · intro pivot row own mem strays
      exact (same row mem).mp ⟨pivot, own, ((strays_iff windowed before after _ _).mp strays).1⟩

theorem windowed_iff {τ : Type} [LinearOrder τ] {lookup : Sql.StringLookup} {f g : DateTime → τ} :
    (q.HasWindow ∧ filters lookup q (q.startTime.map f) (q.endTime.map g) ≠ []) ↔ Windowed q := by
  simp only [Sql.filters_ne_nil, Option.isSome_map, Windowed]

theorem instant_old (datable : Datable db) {row : TelegramRow ℤ} (mem : row ∈ db.telegrams) :
    (row.map fun micros => Stamp.text (strftime micros)).timestamp.instant = row.timestamp :=
  textToMicros_strftime (datable.inRange row mem)

/-- What the filters select of the texts. -/
theorem holds_old (datable : Datable db) (representable : Representable tzdb q) {row : TelegramRow ℤ}
    (mem : row ∈ db.telegrams) :
    Holds (conjunction (filters db.lookup q (q.startTime.map fun bound => .text (strftime (bound.toMicros tzdb)))
        (q.endTime.map fun bound => .text (strftime (bound.toMicros tzdb))))
      (row.map fun micros => Stamp.text (strftime micros)).toColumns) ↔ Pivot tzdb db q row := by
  have inside := datable.inRange row mem
  have instant := instant_old datable mem
  have chosen : Chosen (.old db) q _ _ (row.map fun micros => Stamp.text (strftime micros)) ↔ _ :=
    chosen_text representable rfl rfl (by rwa [instant]) (by rw [instant]; rfl)
  rw [holds_bounds, Pivot, and_iff_right mem, ← instant,
    ← passes_map (f := fun micros => Stamp.text (strftime micros)) row]
  exact chosen

open Classical in
theorem readOnlyMatching_old (datable : Datable db) (representable : Representable tzdb q) :
    readOnlyMatching (.old db) q (q.startTime.map fun bound => .text (strftime (bound.toMicros tzdb)))
        (q.endTime.map fun bound => .text (strftime (bound.toMicros tzdb))) (d.window q) =
      (db.telegrams.filter fun row =>
        if Windowed q then ∃ pivot, Pivot tzdb db q pivot ∧ d.Reaches q pivot.timestamp row.timestamp
        else Pivot tzdb db q row).map (TelegramRow.map fun micros => .text (strftime micros)) := by
  have old : (Disk.old db).telegrams = db.telegrams.map (TelegramRow.map fun micros => .text (strftime micros)) := rfl
  rw [readOnlyMatching, Sql.selected_whereClause, old, List.filter_map]
  refine congrArg _ (List.filter_congr fun row mem => ?_)
  by_cases windowed : Windowed q
  · simp only [windowed_iff, Function.comp_apply, if_pos windowed, List.mem_map, exists_exists_and_eq_and]
    refine decide_eq_decide.mpr (exists_congr fun pivot => ?_)
    constructor
    · rintro ⟨own, selects, window⟩
      exact ⟨(holds_old datable representable own).mp selects,
        (SqliteDates.holds_window (datable.inRange _ own) (datable.inRange _ mem)).mp window⟩
    · rintro ⟨own, reaches⟩
      exact ⟨own.1, (holds_old datable representable own.1).mpr own,
        (SqliteDates.holds_window (datable.inRange _ own.1) (datable.inRange _ mem)).mpr reaches⟩
  · simp only [windowed_iff, Function.comp_apply, if_neg windowed]
    exact decide_eq_decide.mpr (holds_old datable representable mem)

open Classical in
theorem matching_windowed (tzdb : TzDb) (db : Db) (q : TelegramQuery) :
    matching tzdb db q = db.telegrams.filter fun row =>
      if Windowed q then ∃ pivot, Pivot tzdb db q pivot ∧ Within q pivot.timestamp row.timestamp
      else Pivot tzdb db q row := by
  have selects {row : TelegramRow ℤ} (mem : row ∈ db.telegrams) :
      Holds (conjunction (filters db.lookup q (q.startTime.map (DateTime.toMicros tzdb))
        (q.endTime.map (DateTime.toMicros tzdb))) row.toColumns) ↔ Pivot tzdb db q row := by
    rw [holds_bounds, Pivot, and_iff_right mem]
    simp only [Inside, Option.mem_map, forall_exists_index, and_imp, forall_apply_eq_imp_iff₂]
  rw [matching, Sql.selected_whereClause]
  refine List.filter_congr fun row mem => ?_
  by_cases windowed : Windowed q
  · simp only [windowed_iff, if_pos windowed]
    refine decide_eq_decide.mpr (exists_congr fun pivot => ?_)
    constructor
    · rintro ⟨own, picked, window⟩
      refine ⟨(selects own).mp picked, ?_⟩
      simpa [Sql.window, Within] using window
    · rintro ⟨own, within⟩
      refine ⟨own.1, (selects own.1).mpr own, ?_⟩
      simpa [Sql.window, Within] using within
  · simp only [windowed_iff, if_neg windowed]
    exact decide_eq_decide.mpr (selects mem)

/-- Rows of four-digit years, and pages of them, are read as on the converted
file. -/
theorem follows_old (datable : Datable db) : Follows db (.old db) :=
  (sound_of (convertible_old datable)).follows datable

/-- All rows together show whether the edges are clear. -/
theorem clear_of_answered (datable : Datable db) (resolved : Resolved db) (before : 0 ≤ q.deltaBeforeMs)
    (after : 0 ≤ q.deltaAfterMs) (first : q.offset = 0) (room : db.telegrams.length ≤ q.limit)
    {sorting : Sorting Stamp} {sorting' : Sorting ℤ}
    (same : readOnlyQuery tzdb (d.window q) true (.old db) (.old db) q sorting = Sql.answer tzdb db q sorting') :
    Representable tzdb q ∧ (Windowed q → EdgesClear tzdb d db q) := by
  classical
  have result : ∃ result, Sql.answer tzdb db q sorting' = some result := by
    obtain ⟨telegrams, read⟩ := readable (q := q) tzdb datable resolved sorting'
    simp only [Sql.answer, read]
    exact ⟨_, rfl⟩
  obtain ⟨start, stop, start_, stop_⟩ := bounds_of_result (same.trans result.choose_spec)
  have representable : Representable tzdb q := ⟨representable_of_bound start_, representable_of_bound stop_⟩
  refine ⟨representable, fun windowed => (edgesClear_iff windowed.1 before after).mpr fun row mem => ?_⟩
  obtain ⟨arranged, arranged', arranges, arranges', keys⟩ := arranged_of_answered (follows_old datable) datable
    resolved (bindBound_text representable.1) (bindBound_text representable.2) first room same
  -- an instant is among those of a result with one of its rows, and then with all of them
  have taken : row.timestamp ∈ arranged.map (fun row => row.timestamp.instant) ↔
      ∃ pivot, Pivot tzdb db q pivot ∧ d.Reaches q pivot.timestamp row.timestamp := by
    rw [List.mem_map]
    constructor
    · rintro ⟨held, mem', instant⟩
      rw [arranges.perm.mem_iff, readOnlyMatching_old datable representable] at mem'
      obtain ⟨other, own, rfl⟩ := List.mem_map.mp mem'
      simp only [if_pos windowed, List.mem_filter, decide_eq_true_eq] at own
      rw [instant_old datable own.1] at instant
      rw [← instant]
      exact own.2
    · intro reached
      refine ⟨row.map fun micros => .text (strftime micros), ?_, instant_old datable mem⟩
      rw [arranges.perm.mem_iff, readOnlyMatching_old datable representable]
      refine List.mem_map_of_mem (List.mem_filter.mpr ⟨mem, ?_⟩)
      rw [if_pos windowed, decide_eq_true_eq]
      exact reached
  have taken' : row.timestamp ∈ arranged'.map (fun row => row.timestamp) ↔
      ∃ pivot, Pivot tzdb db q pivot ∧ Within q pivot.timestamp row.timestamp := by
    rw [(arranges'.perm.map _).mem_iff, matching_windowed, List.mem_map]
    simp only [if_pos windowed, List.mem_filter, decide_eq_true_eq]
    constructor
    · rintro ⟨other, ⟨own, within⟩, instant⟩
      rw [instant] at within
      exact within
    · intro within
      exact ⟨row, ⟨mem, within⟩, rfl⟩
  rw [← taken, ← taken', keys]

/-- With clear edges every page is that of the converted file. -/
theorem answered_old (datable : Datable db) (before : 0 ≤ q.deltaBeforeMs) (after : 0 ≤ q.deltaAfterMs)
    (representable : Representable tzdb q) (clear : Windowed q → EdgesClear tzdb d db q) (sorting : Sorting Stamp) :
    ∃ sorting', readOnlyQuery tzdb (d.window q) true (.old db) (.old db) q sorting =
      Sql.answer tzdb db q sorting' := by
  classical
  have rows : (readOnlyMatching (.old db) q (q.startTime.map fun bound => .text (strftime (bound.toMicros tzdb)))
      (q.endTime.map fun bound => .text (strftime (bound.toMicros tzdb))) (d.window q)).map
        (TelegramRow.map Stamp.instant) = matching tzdb db q := by
    rw [readOnlyMatching_old datable representable, List.map_map, matching_windowed]
    refine Eq.trans (List.map_congr_left fun row mem => ?_) (List.map_id _) |>.trans
      (List.filter_congr fun row mem => ?_)
    · have instant := instant_old datable (List.mem_of_mem_filter mem)
      simp only [TelegramRow.map] at instant
      simp only [Function.comp_apply, TelegramRow.map, instant, id]
    · by_cases windowed : Windowed q
      · have same := (edgesClear_iff windowed.1 before after).mp (clear windowed) row mem
        simp only [if_pos windowed, same]
      · simp only [if_neg windowed]
  refine answered_of_rows (follows_old datable) datable (bindBound_text representable.1)
    (bindBound_text representable.2) ?_ rows (fun a mem b mem' le => ?_) sorting
  · rw [← rows, List.length_map]
  · obtain ⟨row, held, rfl⟩ := List.mem_map.mp (mem_selected mem)
    obtain ⟨row', held', rfl⟩ := List.mem_map.mp (mem_selected mem')
    simp only [TelegramRow.map, Stamp.instant, Stamp.text_le_text] at le ⊢
    rw [textToMicros_strftime (datable.inRange _ held), textToMicros_strftime (datable.inRange _ held')]
    exact (strftime_le (datable.inRange _ held) (datable.inRange _ held')).mp le

/-- **The context window of an unconverted file** selects the rows of the
converted file, on every page, exactly if the time bounds can be written as
text and no row lies between an edge of a window and that edge in whole
milliseconds. A pivot is in its own window only by its delta, or by the way it
is rounded. -/
theorem text_window_iff (d : SqliteDates) (tzdb : TzDb) (datable : Datable db) (resolved : Resolved db)
    (before : 0 ≤ q.deltaBeforeMs) (after : 0 ≤ q.deltaAfterMs) :
    ((∀ limit offset sorting, ∃ sorting',
        readOnlyQuery tzdb (d.window q) true (.old db) (.old db) { q with limit, offset } sorting =
          Sql.answer tzdb db { q with limit, offset } sorting') ↔
      Representable tzdb q ∧ (Windowed q → EdgesClear tzdb d db q)) ∧
    ∀ pivot ∈ db.telegrams, Pivot tzdb db q pivot →
      (Holds (d.window q (.text (strftime pivot.timestamp)) (.text (strftime pivot.timestamp))) ↔
        d.Prints q pivot.timestamp ∧ (0 < q.deltaBeforeMs ∨ d.millis pivot.timestamp * 1000 ≤ pivot.timestamp) ∧
          (0 < q.deltaAfterMs ∨ pivot.timestamp < d.millis pivot.timestamp * 1000)) := by
  refine ⟨⟨fun always => ?_, fun ⟨representable, clear⟩ limit offset sorting => ?_⟩, fun pivot own _ =>
    SqliteDates.holds_own_window (datable.inRange _ own) before after⟩
  · obtain ⟨sorting', same⟩ := always db.telegrams.length 0 .stable
    let all : TelegramQuery := { q with limit := db.telegrams.length, offset := 0 }
    have clear : Representable tzdb all ∧ (Windowed all → EdgesClear tzdb d db all) :=
      clear_of_answered datable resolved before after rfl le_rfl same
    refine ⟨clear.1, fun windowed => ?_⟩
    exact ⟨(clear.2 windowed).missed, (clear.2 windowed).strays⟩
  · let page : TelegramQuery := { q with limit, offset }
    have clear' : Windowed page → EdgesClear tzdb d db page := fun windowed =>
      ⟨(clear windowed).missed, (clear windowed).strays⟩
    exact answered_old (q := page) datable before after representable clear' sorting

/-! ## One telegram at the epoch -/

/-- Halves of a millisecond up, and nothing but the years 1 to 9999. -/
def halfUp : SqliteDates where
  millis n := (n + 500) / 1000
  nearest n := by
    rw [abs_le]
    omega
  strftime ms :=
    if DateTime.minWall ≤ ms * 1000 ∧ ms * 1000 ≤ DateTime.maxWall then some (strftimeMs ms) else none
  years ms inside := if_pos inside
  later ms late := if_neg fun inside => absurd inside.2 late.not_ge
  earlier ms early text printed := by
    rw [if_neg fun inside => absurd inside.1 early.not_ge] at printed
    cases printed

/-- The telegrams of one device, and what came before and after each. -/
def aroundSource (before after : ℤ) : TelegramQuery :=
  { sources := ["1.1.1"], deltaBeforeMs := before, deltaAfterMs := after }

private theorem prints_epoch (before after : ℤ) (inside : InRange ((0 - before) * 1000))
    (inside' : InRange ((0 + after) * 1000)) :
    halfUp.Prints (aroundSource before after) 0 := by
  have lower : halfUp.strftime (0 - before) = _ := if_pos inside
  have upper : halfUp.strftime (0 + after) = _ := if_pos inside'
  exact ⟨Option.isSome_of_eq_some lower, Option.isSome_of_eq_some upper⟩

/-- With a delta on both sides the pivot is found. -/
theorem window_of_epoch :
    ∃ sorting', readOnlyQuery (fun _ _ _ => 0) (halfUp.window (aroundSource 100 100)) true (.old epochDb) (.old epochDb)
        (aroundSource 100 100) .stable =
      Sql.answer (fun _ _ _ => 0) epochDb (aroundSource 100 100) sorting' := by
  have prints := prints_epoch 100 100 ⟨by decide, by decide⟩ ⟨by decide, by decide⟩
  refine (text_window_iff (q := aroundSource 100 100) halfUp (fun _ _ _ => 0) datable_epoch resolved_epoch
    (by decide) (by decide)).1.mpr ⟨⟨nofun, nofun⟩, fun _ => ⟨?_, ?_⟩⟩ (aroundSource 100 100).limit 0 .stable
  · intro pivot row own mem missed
    rw [List.mem_singleton.mp own.1, List.mem_singleton.mp mem] at missed
    rcases missed with edge | edge | ⟨unprinted, _⟩
    · exact absurd edge (by decide)
    · exact absurd edge (by decide)
    · exact absurd prints unprinted
  · intro pivot row own mem strays
    rw [List.mem_singleton.mp own.1, List.mem_singleton.mp mem] at strays
    exact absurd strays.2 (by decide)

/-- With none behind it, it is not in its own window. -/
theorem pivot_outside_window :
    (∀ sorting, ∃ result, readOnlyQuery (fun _ _ _ => 0) (halfUp.window (aroundSource 100 0)) true (.old epochDb)
      (.old epochDb) (aroundSource 100 0) sorting = some result ∧ result.totalCount = 0) ∧
    ∀ sorting, ∃ result, Sql.answer (fun _ _ _ => 0) epochDb (aroundSource 100 0) sorting = some result ∧
      result.totalCount = 1 := by
  classical
  have windowed : Windowed (aroundSource 100 0) := ⟨by decide, .inl (by decide)⟩
  constructor
  · intro sorting
    have nothing : readOnlyMatching (.old epochDb) (aroundSource 100 0) none none
      (halfUp.window (aroundSource 100 0)) = [] := by
      have representable : Representable (fun _ _ _ => 0) (aroundSource 100 0) := ⟨nofun, nofun⟩
      have selected := readOnlyMatching_old (d := halfUp) datable_epoch representable
      refine selected.trans (List.map_eq_nil_iff.mpr (List.filter_eq_nil_iff.mpr fun row mem => ?_))
      rw [if_pos windowed, decide_eq_true_eq]
      rintro ⟨pivot, own, _, reaches⟩
      rw [List.mem_singleton.mp own.1, List.mem_singleton.mp mem] at reaches
      exact absurd reaches (by decide)
    have page : Sql.fetchPage (Disk.old epochDb).lookup [] (aroundSource 100 0) sorting = [] :=
      List.eq_nil_iff_forall_not_mem.mpr fun fetched mem => List.not_mem_nil (Sql.mem_fetchPage mem).1
    have unbounded : (none : Option DateTime).mapM (bindBound (fun _ _ _ => 0) true) = some none := rfl
    simp only [readOnlyQuery, aroundSource, unbounded, Option.bind_eq_bind, Option.bind_some] at nothing page ⊢
    simp only [nothing, page]
    exact ⟨_, rfl, rfl⟩
  · intro sorting
    obtain ⟨telegrams, read⟩ := readable (q := aroundSource 100 0) (fun _ _ _ => 0) datable_epoch resolved_epoch sorting
    simp only [Sql.answer, read]
    exact ⟨_, rfl, rfl⟩

end KnxTelegramStore.Sqlite
