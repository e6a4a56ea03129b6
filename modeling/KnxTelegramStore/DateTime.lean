import Mathlib.Data.Int.Basic
import Mathlib.Tactic.Linarith

/-!
The datetimes the store handles, with Python's own rules for them: naive and
aware values, comparison, arithmetic with its range check, and the integer
microseconds a SQLite column holds. A datetime is its wall-clock reading,
counted in microseconds from 1970-01-01T00:00 on the same clock.
-/
namespace KnxTelegramStore

/-- A `tzinfo` object: `timezone.utc` and its like have one offset (in
microseconds), a named zone takes its offsets from the tz database. -/
inductive TzInfo where
  | fixed (offset : ℤ)
  | zone (key : ℕ)
  deriving DecidableEq, Repr

/-- The tz database: the offset a zone has at a wall-clock reading, for either
`fold`. -/
abbrev TzDb := ℕ → ℤ → Bool → ℤ

structure DateTime where
  /-- The digits, in microseconds since 1970-01-01T00:00 on the same clock. -/
  wall : ℤ
  /-- The second pass of a repeated hour. -/
  fold : Bool := false
  tzinfo : Option TzInfo
  deriving DecidableEq, Repr

namespace TzInfo

/-- `timezone.utc`. -/
def utc : TzInfo := .fixed 0

/-- `tzinfo.utcoffset()` of a wall-clock reading. -/
def utcoffset (tzdb : TzDb) : TzInfo → ℤ → Bool → ℤ
  | .fixed offset, _, _ => offset
  | .zone key, wall, fold => tzdb key wall fold

end TzInfo

namespace DateTime

variable {tzdb : TzDb} {a b d : DateTime}

/-- `datetime.min` and `datetime.max`, the years 1 and 9999. -/
def minWall : ℤ := -62135596800000000
def maxWall : ℤ := 253402300799999999

def Aware (d : DateTime) : Prop := d.tzinfo.isSome

instance : DecidablePred Aware := fun d => inferInstanceAs (Decidable (d.tzinfo.isSome = true))

/-- `base_sql.py::datetime_to_micros`: microseconds since the Unix epoch, a
naive value taken as UTC. -/
def toMicros (tzdb : TzDb) (d : DateTime) : ℤ :=
  match d.tzinfo with
  | none => d.wall
  | some tz => d.wall - tz.utcoffset tzdb d.wall d.fold

/-- The aware UTC datetime of an instant, out of range or not. -/
def ofMicros (value : ℤ) : DateTime := { wall := value, tzinfo := some .utc }

/-- `base_sql.py::micros_to_datetime`; `none` is the `OverflowError` outside
the years 1 to 9999. -/
def microsToDatetime (value : ℤ) : Option DateTime :=
  if minWall ≤ value ∧ value ≤ maxWall then some (ofMicros value) else none

/-- `replace(tzinfo=UTC)` of a naive value, `astimezone(UTC)` of an aware one;
`none` is the `OverflowError`. -/
def asUtc (tzdb : TzDb) (d : DateTime) : Option DateTime :=
  match d.tzinfo with
  | none => some { d with tzinfo := some .utc }
  | some _ => microsToDatetime (d.toMicros tzdb)

/-- `a < b`. Two datetimes of the same `tzinfo` compare by their digits, those
of different ones by their instants; `none` is the `TypeError` a naive and an
aware one raise. -/
def lt? (tzdb : TzDb) (a b : DateTime) : Option Bool :=
  match a.tzinfo, b.tzinfo with
  | none, none => some (a.wall < b.wall)
  | some x, some y =>
    if x = y then some (a.wall < b.wall) else some (a.toMicros tzdb < b.toMicros tzdb)
  | _, _ => none

/-- `datetime + timedelta`, on the digits; `none` is the `OverflowError`. -/
def add? (d : DateTime) (delta : ℤ) : Option DateTime :=
  if minWall ≤ d.wall + delta ∧ d.wall + delta ≤ maxWall then
    some { d with wall := d.wall + delta, fold := false } else none

/-- `a <= b`. -/
def le? (tzdb : TzDb) (a b : DateTime) : Option Bool := (lt? tzdb b a).map (!·)

/-- `timedelta(milliseconds=...)` in microseconds; `none` is the
`OverflowError` beyond 999999999 days. -/
def timedelta? (milliseconds : ℤ) : Option ℤ :=
  if -(999999999 * 86400000000) ≤ milliseconds * 1000 ∧ milliseconds * 1000 < 1000000000 * 86400000000 then
    some (milliseconds * 1000) else none

@[simp] theorem toMicros_ofMicros (value : ℤ) : (ofMicros value).toMicros tzdb = value := by
  simp [ofMicros, toMicros, TzInfo.utc, TzInfo.utcoffset]

/-- Reading a column back gives the instant it was written with. -/
theorem microsToDatetime_instant {value : ℤ} (read : microsToDatetime value = some d) :
    d.toMicros tzdb = value ∧ d.tzinfo = some .utc := by
  unfold microsToDatetime at read
  split at read
  · cases read
    exact ⟨toMicros_ofMicros value, rfl⟩
  · cases read

/-- `d.utcoffset()`, zero for a naive value. -/
def utcoffset (tzdb : TzDb) (d : DateTime) : ℤ :=
  match d.tzinfo with
  | none => 0
  | some tz => tz.utcoffset tzdb d.wall d.fold

theorem toMicros_eq (d : DateTime) : d.toMicros tzdb = d.wall - d.utcoffset tzdb := by
  unfold toMicros utcoffset
  split
  · rw [sub_zero]
  · rfl

/-- Python compares instants wherever one `tzinfo` has one offset. -/
theorem lt?_of_offset (first : a.Aware) (second : b.Aware)
    (same : a.tzinfo = b.tzinfo → a.utcoffset tzdb = b.utcoffset tzdb) :
    lt? tzdb a b = some (decide (a.toMicros tzdb < b.toMicros tzdb)) := by
  obtain ⟨x, left⟩ := Option.isSome_iff_exists.mp first
  obtain ⟨y, right⟩ := Option.isSome_iff_exists.mp second
  simp only [lt?, left, right]
  split
  · rename_i equal
    have offset := same (by rw [left, right, equal])
    simp only [toMicros_eq, offset]
    simp
  · rfl

theorem le?_of_offset (first : a.Aware) (second : b.Aware)
    (same : a.tzinfo = b.tzinfo → a.utcoffset tzdb = b.utcoffset tzdb) :
    le? tzdb a b = some (decide (a.toMicros tzdb ≤ b.toMicros tzdb)) := by
  rw [le?, lt?_of_offset second first fun equal => (same equal.symm).symm, Option.map_some, ← decide_not]
  simp only [not_lt]

/-- A `timezone` has its offset wherever it is met. -/
theorem utcoffset_of_fixed {offset : ℤ} (fixed : a.tzinfo = some (.fixed offset)) (equal : a.tzinfo = b.tzinfo) :
    a.utcoffset tzdb = b.utcoffset tzdb := by
  rw [fixed] at equal
  simp only [utcoffset, fixed, ← equal, TzInfo.utcoffset]

theorem lt?_isSome (first : a.Aware) (second : b.Aware) : (lt? tzdb a b).isSome := by
  obtain ⟨x, left⟩ := Option.isSome_iff_exists.mp first
  obtain ⟨y, right⟩ := Option.isSome_iff_exists.mp second
  simp only [lt?, left, right]
  split <;> rfl

/-- What Python promises of every datetime: the years 1 to 9999, and a UTC
offset of less than a day. -/
structure Valid (tzdb : TzDb) (d : DateTime) : Prop where
  range : minWall ≤ d.wall ∧ d.wall ≤ maxWall
  offset : (d.utcoffset tzdb).natAbs < 86400000000

theorem add?_tzinfo {delta : ℤ} {moved : DateTime} (added : d.add? delta = some moved) :
    moved.tzinfo = d.tzinfo ∧ moved.wall = d.wall + delta := by
  unfold add? at added
  split at added
  · cases added
    exact ⟨rfl, rfl⟩
  · cases added

/-- Moving the digits moves the instant, unless the offset changes. -/
theorem add?_instant {delta : ℤ} {moved : DateTime} (added : d.add? delta = some moved)
    (same : moved.utcoffset tzdb = d.utcoffset tzdb) : moved.toMicros tzdb = d.toMicros tzdb + delta := by
  rw [toMicros_eq, toMicros_eq, same, (add?_tzinfo added).2]
  omega

end DateTime

end KnxTelegramStore
