import KnxTelegramStore.Model
import KnxTelegramStore.Sqlite.TextTimestamps

/-!
The three forms in which a store writes a datetime (`UtcDateTime` in
`backends/base_sql.py`): an aware datetime for PostgreSQL, integer microseconds
for SQLite, and the 26 characters of a SQLite file that is not yet converted.
They are in the order of the instants they stand for, and all read back as the
same datetime.
-/
namespace KnxTelegramStore.Sqlite
open FixedWidth

variable {tzdb : TzDb} {a b value utc : DateTime} {n : ℤ}

/-- A value bound to a timestamp column. -/
inductive Bound where
  | micros (n : ℤ)
  | aware (utc : DateTime)
  deriving DecidableEq

/-- `UtcDateTime.process_bind_param` of a datetime. -/
def processBindParam (backend : Backend) (tzdb : TzDb) (value : DateTime) : Option Bound :=
  match backend with
  | .sqlite => some (.micros (value.toMicros tzdb))
  | .postgres => (value.asUtc tzdb).map .aware

/-- An instant of the UTC years 1000 to 9999. -/
def FourDigitYear (n : ℤ) : Prop :=
  Calendar.daysBeforeYear 1000 * 86400000000 + DateTime.minWall ≤ n ∧ n ≤ DateTime.maxWall

/-- One datetime is earlier than another: a naive one is read as UTC, an aware
one against its own offset. -/
def Earlier (tzdb : TzDb) (a b : DateTime) : Prop := a.wall - a.utcoffset tzdb < b.wall - b.utcoffset tzdb

theorem FourDigitYear.inRange (year : FourDigitYear n) : InRange n := by
  have first : 0 ≤ (Calendar.daysBeforeYear 1000 : ℤ) := Int.natCast_nonneg _
  obtain ⟨low, high⟩ := year
  exact ⟨by omega, high⟩

theorem earlier_iff : Earlier tzdb a b ↔ a.toMicros tzdb < b.toMicros tzdb := by
  rw [Earlier, DateTime.toMicros_eq, DateTime.toMicros_eq]

/-- In range there is an aware UTC datetime of the same instant. -/
theorem asUtc_some (inside : InRange (value.toMicros tzdb)) :
    ∃ utc, value.asUtc tzdb = some utc ∧ utc.tzinfo = some .utc ∧ utc.wall = value.toMicros tzdb := by
  unfold DateTime.asUtc
  cases zone : value.tzinfo with
  | none =>
    refine ⟨_, rfl, rfl, ?_⟩
    simp only [DateTime.toMicros, zone]
  | some tz =>
    obtain ⟨low, high⟩ := inside
    exact ⟨_, if_pos ⟨low, high⟩, rfl, rfl⟩

theorem processResultValue_integer (inside : InRange n) :
    processResultValue (.integer n) = some (DateTime.ofMicros n) := by
  obtain ⟨low, high⟩ := inside
  exact if_pos ⟨low, high⟩

theorem processResultValue_text (inside : InRange n) :
    processResultValue (.text (strftime n)) = some (DateTime.ofMicros n) := by
  rw [processResultValue, fromisoformat_strftime inside]
  rfl

theorem length_strftime (n : ℤ) : (strftime n).length = 26 := by
  obtain ⟨year, month, day, hour, minute, second, micro, fields, _⟩ :=
    Calendar.fields_eq (n - DateTime.minWall).toNat
  rw [strftime, fields]
  rfl

theorem strftime_lt {m : ℤ} (first : InRange m) (second : InRange n) : strftime m < strftime n ↔ m < n := by
  rw [← not_le, ← not_le, strftime_le second first]

/-- **The encodings are order-isomorphic.** For datetimes of the UTC years 1000
to 9999 each of the three encodings exists, says which of two is the earlier,
and reads back as the aware UTC datetime of the instant; equal instants have
equal encodings. -/
theorem encodings_agree (a b : DateTime) (yearA : FourDigitYear (a.toMicros tzdb))
    (yearB : FourDigitYear (b.toMicros tzdb)) :
    ∃ textA textB utcA utcB,
      (textTimestamp tzdb a = some textA ∧ textTimestamp tzdb b = some textB ∧ textA.length = 26) ∧
      (processBindParam .sqlite tzdb a = some (.micros (a.toMicros tzdb)) ∧
        processBindParam .postgres tzdb a = some (.aware utcA) ∧
        processBindParam .postgres tzdb b = some (.aware utcB)) ∧
      (∃ read, processResultValue (.integer (a.toMicros tzdb)) = some read ∧
        processResultValue (.text textA) = some read ∧
        read.tzinfo = some .utc ∧ read.wall = a.wall - a.utcoffset tzdb) ∧
      (Earlier tzdb a b ↔ a.toMicros tzdb < b.toMicros tzdb) ∧
      (Earlier tzdb a b ↔ textA < textB) ∧
      (Earlier tzdb a b ↔ utcA.lt? tzdb utcB = some true) ∧
      (a.wall - a.utcoffset tzdb = b.wall - b.utcoffset tzdb →
        a.toMicros tzdb = b.toMicros tzdb ∧ textA = textB ∧ utcA.wall = utcB.wall) := by
  have insideA := yearA.inRange
  have insideB := yearB.inRange
  obtain ⟨utcA, boundA, zoneA, wallA⟩ := asUtc_some insideA
  obtain ⟨utcB, boundB, zoneB, wallB⟩ := asUtc_some insideB
  refine ⟨_, _, utcA, utcB, ⟨textTimestamp_eq insideA, textTimestamp_eq insideB, length_strftime _⟩, ⟨rfl, ?_, ?_⟩,
    ⟨_, processResultValue_integer insideA, processResultValue_text insideA, rfl, DateTime.toMicros_eq a⟩,
    earlier_iff, ?_, ?_, fun same => ?_⟩
  · rw [processBindParam, boundA]
    rfl
  · rw [processBindParam, boundB]
    rfl
  · rw [earlier_iff, strftime_lt insideA insideB]
  · rw [earlier_iff, ← wallA, ← wallB]
    simp [DateTime.lt?, zoneA, zoneB]
  · have micros : a.toMicros tzdb = b.toMicros tzdb := by rw [DateTime.toMicros_eq, DateTime.toMicros_eq, same]
    exact ⟨micros, by rw [micros], by rw [wallA, wallB, micros]⟩

/-- Noon two hours ahead of UTC comes before eleven o'clock without an offset,
whose digits are the smaller. -/
theorem encodings_of_offsets :
    Earlier (fun _ _ _ => 0) ⟨43200000000, false, some (.fixed 7200000000)⟩ ⟨39600000000, false, none⟩ ∧
      ∃ textA textB, textA < textB ∧
        textTimestamp (fun _ _ _ => 0) ⟨43200000000, false, some (.fixed 7200000000)⟩ = some textA ∧
        textTimestamp (fun _ _ _ => 0) ⟨39600000000, false, none⟩ = some textB := by
  have earlier : Earlier (fun _ _ _ => 0) ⟨43200000000, false, some (.fixed 7200000000)⟩
    ⟨39600000000, false, none⟩ := by
    unfold Earlier
    decide
  have year (n : ℤ) (low : 0 ≤ n) (high : n ≤ 86400000000) : FourDigitYear n := by
    have days : Calendar.daysBeforeYear 1000 = 364877 := rfl
    unfold FourDigitYear DateTime.minWall DateTime.maxWall
    omega
  obtain ⟨textA, textB, utcA, utcB, ⟨written, written', _⟩, _, _, _, order, _⟩ :=
    @encodings_agree (fun _ _ _ => 0) ⟨43200000000, false, some (.fixed 7200000000)⟩ ⟨39600000000, false, none⟩
      (year _ (by decide) (by decide)) (year _ (by decide) (by decide))
  exact ⟨earlier, textA, textB, order.mp earlier, written, written'⟩

end KnxTelegramStore.Sqlite
