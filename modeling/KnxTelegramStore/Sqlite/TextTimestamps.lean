import KnxTelegramStore.DateTime
import KnxTelegramStore.Lib.Calendar
import Mathlib.Data.Sum.Order

/-!
The two encodings of a timestamp in a SQLite file: integer microseconds, and
the 26 characters a file written before 0.15 holds. Of two texts the later is
the greater, but every integer sorts before every text, whatever they stand
for.
-/
namespace KnxTelegramStore.Sqlite
open FixedWidth

variable {tzdb : TzDb} {a b n : ℤ}

/-- A value of the timestamp column. -/
inductive Stamp where
  | integer (micros : ℤ)
  | text (digits : List Char)

namespace Stamp

/-- SQLite's order of values: integers, then texts bytewise. -/
def key : Stamp → ℤ ⊕ₗ List Char
  | .integer micros => toLex (.inl micros)
  | .text digits => toLex (.inr digits)

theorem key_injective : Function.Injective key := by
  intro x y same
  cases x <;> cases y <;> simp_all [key]

instance : LinearOrder Stamp := LinearOrder.lift' key key_injective

@[simp] theorem integer_le_integer : integer a ≤ integer b ↔ a ≤ b := Sum.Lex.inl_le_inl_iff

@[simp] theorem text_le_text {s t : List Char} : text s ≤ text t ↔ s ≤ t := Sum.Lex.inr_le_inr_iff

@[simp] theorem integer_le_text {t : List Char} : integer a ≤ text t := Sum.Lex.inl_le_inr _ _

@[simp] theorem not_text_le_integer {s : List Char} : ¬ text s ≤ integer b := Sum.Lex.not_inr_le_inl

end Stamp

/-- `_SQLITE_TEXT`. -/
def sqliteText : Layout := [(4, ['-']), (2, ['-']), (2, [' ']), (2, [':']), (2, [':']), (2, ['.']), (6, [])]

/-- `strftime(_SQLITE_TEXT)` of a datetime's digits. -/
def strftime (wall : ℤ) : List Char := render sqliteText (Calendar.fields (wall - DateTime.minWall).toNat)

/-- `base_sql.py::_text_timestamp`; `none` is the `OverflowError` of
`astimezone`. `%Y` has four digits, as documented; older versions of Python on
Linux write the year 999 with three. -/
def textTimestamp (tzdb : TzDb) (value : DateTime) : Option (List Char) :=
  (DateTime.microsToDatetime (value.toMicros tzdb)).map fun utc => strftime utc.wall

/-- The microseconds of a fraction; Python reads no more than six digits of
it. -/
def microsecond : List Char → Option ℕ
  | [] => some 0
  | '.' :: fraction =>
    if fraction ≠ [] ∧ fraction.all Char.isDigit then
      some (value 0 (fraction.take 6) * 10 ^ (6 - (fraction.take 6).length)) else none
  | _ => none

/-- `datetime.fromisoformat` of `YYYY-MM-DD HH:MM:SS`, with any separator in
the middle, and perhaps a fraction; `none` is the `ValueError`. -/
def fromisoformat (digits : List Char) : Option DateTime :=
  match parse (sqliteText.take 6) (digits.take 19) with
  | [year, month, day, hour, minute, second] =>
    if Calendar.IsDate year month day ∧ hour < 24 ∧ minute < 60 ∧ second < 60 then
      (microsecond (digits.drop 19)).map fun micro =>
        { wall := (Calendar.seconds year month day hour minute second * 1000000 + micro : ℕ) + DateTime.minWall
          tzinfo := none }
    else none
  | _ => none

/-- `UtcDateTime.process_result_value`. -/
def processResultValue : Stamp → Option DateTime
  | .integer value => DateTime.microsToDatetime value
  | .text digits => (fromisoformat digits).map fun value => { value with tzinfo := some .utc }

/-- SQLite's `strftime('%s', ...)` of `YYYY-MM-DD HH:MM:SS`. -/
def unixSeconds (digits : List Char) : ℤ :=
  match parse (sqliteText.take 6) digits with
  | [year, month, day, hour, minute, second] => Calendar.seconds year month day hour minute second - 62135596800
  | _ => 0

/-- What `_TEXT_TO_MICROS` sets. -/
def textToMicros (digits : List Char) : ℤ :=
  unixSeconds (digits.take 19) * 1000000 +
    value 0 (((digits ++ ['0', '0', '0', '0', '0', '0']).drop 20).take 6)

/-! ## Texts of representable instants -/

/-- An instant in the years 1 to 9999. -/
def InRange (n : ℤ) : Prop := DateTime.minWall ≤ n ∧ n ≤ DateTime.maxWall

theorem textTimestamp_eq {value : DateTime} (inside : InRange (value.toMicros tzdb)) :
    textTimestamp tzdb value = some (strftime (value.toMicros tzdb)) := by
  obtain ⟨low, high⟩ := inside
  simp [textTimestamp, DateTime.microsToDatetime, DateTime.ofMicros, low, high]

theorem textTimestamp_none {value : DateTime} (outside : ¬ InRange (value.toMicros tzdb)) :
    textTimestamp tzdb value = none := by
  unfold InRange at outside
  simp only [textTimestamp, DateTime.microsToDatetime, if_neg outside, Option.map_none]

theorem fields_fit (inside : InRange n) : Fits sqliteText (Calendar.fields (n - DateTime.minWall).toNat) := by
  have small := Calendar.fields_small (n - DateTime.minWall).toNat (by
    have span : Calendar.daysBeforeYear 10000 * 86400000000 = 315537897600000000 := rfl
    rw [span]
    unfold InRange DateTime.minWall DateTime.maxWall at *
    omega)
  obtain ⟨year, month, day, hour, minute, second, micro, fields, _⟩ :=
    Calendar.fields_eq (n - DateTime.minWall).toNat
  rw [fields] at small ⊢
  simp only [List.forall₂_cons] at small
  simp only [Fits, sqliteText, List.forall₂_cons, List.Forall₂.nil]
  norm_num
  omega

/-- Of two texts the later is the greater. -/
theorem strftime_le (first : InRange a) (second : InRange b) : strftime a ≤ strftime b ↔ a ≤ b := by
  have strict {a b : ℤ} (first : InRange a) (second : InRange b) (less : a < b) : strftime a < strftime b := by
    refine render_lt (fields_fit first) (fields_fit second) (Calendar.fields_lt ?_)
    have low := first.1
    omega
  constructor
  · intro le
    by_contra later
    exact absurd le (strict second first (not_le.mp later)).not_ge
  · intro le
    rcases le.lt_or_eq with less | rfl
    · exact (strict first second less).le
    · exact le_rfl

/-- Padded with zeros, a fraction counts microseconds. -/
theorem microsecond_padded {digits : List Char} {micro : ℕ} (read : microsecond (digits.drop 19) = some micro) :
    value 0 (((digits ++ ['0', '0', '0', '0', '0', '0']).drop 20).take 6) = micro := by
  have zeros : ['0', '0', '0', '0', '0', '0'] = List.replicate 6 '0' := rfl
  rw [zeros]
  cases rest : digits.drop 19 with
  | nil =>
    rw [rest] at read
    cases read
    have short : digits.length ≤ 19 := List.drop_eq_nil_iff.mp rest
    rw [List.drop_append, List.drop_eq_nil_of_le (by omega), List.nil_append, List.drop_replicate, List.take_replicate,
      value_zeros, Nat.zero_mul]
  | cons point fraction =>
    have tail : digits.drop 20 = fraction := by
      have next : digits.drop 20 = (digits.drop 19).drop 1 := by rw [List.drop_drop]
      rw [next, rest]
      rfl
    have long : 20 ≤ digits.length := by
      have size := congrArg List.length rest
      rw [List.length_drop, List.length_cons] at size
      omega
    rw [rest] at read
    unfold microsecond at read
    split at read
    · rename_i empty
      cases empty
    · rename_i fraction' same
      cases same
      obtain ⟨_, same⟩ := Option.ite_none_right_eq_some.mp read
      cases same
      rw [List.drop_append_of_le_length long, tail, List.take_append, value_append, List.take_replicate, value_zeros,
        List.length_take]
      congr 2
      omega
    · cases read

/-- **What Python reads, the conversion writes**, for every length of the
fraction. -/
theorem textToMicros_fromisoformat {digits : List Char} {read : DateTime} (reads : fromisoformat digits = some read) :
    textToMicros digits = read.wall := by
  unfold fromisoformat at reads
  split at reads
  · rename_i year month day hour minute second parsed
    split at reads
    · obtain ⟨micro, fraction, rfl⟩ := Option.map_eq_some_iff.mp reads
      simp only [textToMicros, unixSeconds, parsed, microsecond_padded fraction, DateTime.minWall]
      omega
    · cases reads
  · cases reads

theorem fromisoformat_strftime (inside : InRange n) :
    fromisoformat (strftime n) = some { wall := n, tzinfo := none } := by
  obtain ⟨year, month, day, hour, minute, second, micro, fields, count, date, hours, minutes, seconds, _⟩ :=
    Calendar.fields_eq (n - DateTime.minWall).toNat
  have fits := fields_fit inside
  have low := inside.1
  unfold fromisoformat strftime
  rw [fields] at fits ⊢
  have six : parse (sqliteText.take 6) ((render sqliteText [year, month, day, hour, minute, second, micro]).take 19) =
      [year, month, day, hour, minute, second] := by
    have all := parse_render fits
    have front : parse (sqliteText.take 6)
        ((render sqliteText [year, month, day, hour, minute, second, micro]).take 19) =
        (parse sqliteText (render sqliteText [year, month, day, hour, minute, second, micro])).take 6 := rfl
    rw [front, all]
    rfl
  have fraction : microsecond ((render sqliteText [year, month, day, hour, minute, second, micro]).drop 19) =
    some micro := by
    have last : (render sqliteText [year, month, day, hour, minute, second, micro]).drop 19 =
      '.' :: digits 6 micro := rfl
    simp only [Fits, sqliteText, List.forall₂_cons] at fits
    have whole : (digits 6 micro).take 6 = digits 6 micro := List.take_of_length_le (by simp)
    rw [last, microsecond, if_pos ⟨List.cons_ne_nil _ _, isDigit_digits 6 micro⟩, whole, value_digits, length_digits,
      Nat.mod_eq_of_lt fits.2.2.2.2.2.2.1]
    simp
  simp only [six, fraction, date, hours, minutes, seconds, and_self, if_true, Option.map_some, count]
  congr
  omega

/-- `YYYY-MM-DD`, `T` or a blank, `HH:MM:SS`, and one to six digits of a
fraction or none. -/
structure IsoText where
  year : ℕ
  month : ℕ
  day : ℕ
  hour : ℕ
  minute : ℕ
  second : ℕ
  separator : Char
  fraction : List Char
  date : Calendar.IsDate year month day
  year_lt : year < 10000
  time : hour < 24 ∧ minute < 60 ∧ second < 60
  separator_eq : separator = 'T' ∨ separator = ' '
  fraction_le : fraction.length ≤ 6
  fraction_digits : fraction.all Char.isDigit

theorem IsoText.letter_separates : 'T' = 'T' ∨ 'T' = ' ' := .inl rfl

def IsoText.digits (t : IsoText) : List Char :=
  render [(4, ['-']), (2, ['-']), (2, [t.separator]), (2, [':']), (2, [':']), (2, [])]
      [t.year, t.month, t.day, t.hour, t.minute, t.second] ++
    if t.fraction = [] then [] else '.' :: t.fraction

/-- The microseconds its fraction counts. -/
def IsoText.micro (t : IsoText) : ℕ := value 0 t.fraction * 10 ^ (6 - t.fraction.length)

/-- What Python reads such a text as. -/
theorem IsoText.fromisoformat_digits (t : IsoText) : fromisoformat t.digits = some {
    wall := (Calendar.seconds t.year t.month t.day t.hour t.minute t.second * 1000000 + t.micro : ℕ) + DateTime.minWall
    tzinfo := none } := by
  obtain ⟨_, positive, small, _, day⟩ := t.date
  have short := Calendar.daysInMonth_le t.year positive small
  obtain ⟨hours, minutes, seconds⟩ := t.time
  have year_lt := t.year_lt
  have front : t.digits.take 19 =
      render [(4, ['-']), (2, ['-']), (2, [t.separator]), (2, [':']), (2, [':']), (2, [])]
        [t.year, t.month, t.day, t.hour, t.minute, t.second] := rfl
  have back : t.digits.drop 19 = if t.fraction = [] then [] else '.' :: t.fraction := rfl
  have six : parse (sqliteText.take 6) (t.digits.take 19) = [t.year, t.month, t.day, t.hour, t.minute, t.second] := by
    have fits : Fits [(4, ['-']), (2, ['-']), (2, [t.separator]), (2, [':']), (2, [':']), (2, [])]
        [t.year, t.month, t.day, t.hour, t.minute, t.second] := by
      simp only [Fits, List.forall₂_cons, List.Forall₂.nil]
      norm_num
      omega
    rw [front]
    -- a separator counts by its length alone
    exact parse_render fits
  have fraction : microsecond (t.digits.drop 19) = some t.micro := by
    rw [back, IsoText.micro]
    split
    · rename_i empty
      rw [empty]
      rfl
    · rename_i nonempty
      have whole : t.fraction.take 6 = t.fraction := List.take_of_length_le t.fraction_le
      rw [microsecond, if_pos ⟨nonempty, t.fraction_digits⟩, whole]
  simp only [fromisoformat, six, fraction, t.date, hours, minutes, seconds, and_self, if_true, Option.map_some]

/-- Python reads every such text. -/
theorem IsoText.reads (t : IsoText) : ∃ read, fromisoformat t.digits = some read := ⟨_, t.fromisoformat_digits⟩

/-- The conversion is lossless. -/
theorem textToMicros_strftime (inside : InRange n) : textToMicros (strftime n) = n :=
  textToMicros_fromisoformat (fromisoformat_strftime inside)

end KnxTelegramStore.Sqlite
