import KnxTelegramStore.Lib.FixedWidth
import Mathlib.Data.Nat.Find

/-!
The proleptic Gregorian calendar from 0001-01-01 on. A count of microseconds
is split into the fields of a date and a time of day (`fields`); later counts
have greater fields, compared one after the other (`fields_lt`), and the
fields determine the count (`fields_eq`).
-/
namespace Calendar

variable {days days' year month m n : ℕ}

/-- A year of 366 days. -/
def IsLeap (year : ℕ) : Prop := year % 4 = 0 ∧ (year % 100 ≠ 0 ∨ year % 400 = 0)

instance : DecidablePred IsLeap := fun year =>
  inferInstanceAs (Decidable (year % 4 = 0 ∧ (year % 100 ≠ 0 ∨ year % 400 = 0)))

/-- Days before January 1st of a year. -/
def daysBeforeYear (year : ℕ) : ℕ :=
  (year - 1) * 365 + (year - 1) / 4 - (year - 1) / 100 + (year - 1) / 400

/-- Days of the year before the first of a month. -/
def daysBeforeMonth (year month : ℕ) : ℕ :=
  [0, 31, 59, 90, 120, 151, 181, 212, 243, 273, 304, 334].getD (month - 1) 0 +
    if 2 < month ∧ IsLeap year then 1 else 0

/-- The year of a day, counted from 0001-01-01 on. -/
def yearOf (days : ℕ) : ℕ := Nat.findGreatest (fun year => daysBeforeYear year ≤ days) (days / 365 + 1)

/-- The month of a day of a year. -/
def monthOf (year day : ℕ) : ℕ := Nat.findGreatest (fun month => daysBeforeMonth year month ≤ day) 12

theorem daysBeforeYear_succ (positive : 0 < year) :
    daysBeforeYear (year + 1) = daysBeforeYear year + if IsLeap year then 366 else 365 := by
  obtain ⟨y, rfl⟩ : ∃ y, year = y + 1 := ⟨year - 1, by omega⟩
  have carry (k : ℕ) : (y + 1) / k = y / k + if (y + 1) % k = 0 then 1 else 0 := by
    rw [Nat.succ_div]
    simp only [Nat.dvd_iff_mod_eq_zero]
  have fewer : y / 100 ≤ y / 4 := Nat.div_le_div_left (by decide) (by decide)
  simp only [daysBeforeYear, IsLeap, Nat.add_sub_cancel, carry]
  generalize y / 4 = fours at *
  generalize y / 100 = hundreds at *
  generalize y / 400 = fourHundreds at *
  by_cases four : (y + 1) % 4 = 0
  · by_cases hundred : (y + 1) % 100 = 0
    · by_cases fourHundred : (y + 1) % 400 = 0
      · simp [four, hundred, fourHundred]
        omega
      · simp [four, hundred, fourHundred]
        omega
    · have fourHundred : ¬ (y + 1) % 400 = 0 := by omega
      simp [four, hundred, fourHundred]
      omega
  · have hundred : ¬ (y + 1) % 100 = 0 := by omega
    have fourHundred : ¬ (y + 1) % 400 = 0 := by omega
    simp [four, hundred, fourHundred]
    omega

theorem daysBeforeYear_mono (le : m ≤ n) : daysBeforeYear m ≤ daysBeforeYear n := by
  induction n, le using Nat.le_induction with
  | base => exact le_rfl
  | succ n _ ih =>
    refine ih.trans ?_
    cases n with
    | zero => decide
    | succ n =>
      rw [daysBeforeYear_succ (Nat.succ_pos n)]
      exact Nat.le_add_right _ _

theorem le_daysBeforeYear (year : ℕ) : (year - 1) * 365 ≤ daysBeforeYear year := by
  unfold daysBeforeYear
  omega

theorem yearOf_pos (days : ℕ) : 0 < yearOf days := by
  have first : daysBeforeYear 1 ≤ days := Nat.zero_le days
  exact Nat.le_findGreatest (by omega) first

theorem daysBeforeYear_yearOf (days : ℕ) : daysBeforeYear (yearOf days) ≤ days := by
  have first : daysBeforeYear 1 ≤ days := Nat.zero_le days
  exact Nat.findGreatest_spec (P := fun year => daysBeforeYear year ≤ days) (m := 1) (by omega) first

theorem lt_daysBeforeYear (days : ℕ) : days < daysBeforeYear (yearOf days + 1) := by
  by_contra reached
  have below : yearOf days + 1 ≤ days / 365 + 1 := by
    have linear := le_daysBeforeYear (yearOf days + 1)
    omega
  have greatest := Nat.le_findGreatest (P := fun year => daysBeforeYear year ≤ days) below (not_lt.mp reached)
  have same : Nat.findGreatest (fun year => daysBeforeYear year ≤ days) (days / 365 + 1) = yearOf days := rfl
  omega

theorem yearOf_mono (le : days ≤ days') : yearOf days ≤ yearOf days' := by
  by_contra later
  have after : daysBeforeYear (yearOf days' + 1) ≤ daysBeforeYear (yearOf days) :=
    daysBeforeYear_mono (not_le.mp later)
  have before := daysBeforeYear_yearOf days
  have beyond := lt_daysBeforeYear days'
  omega

theorem monthOf_pos (year day : ℕ) : 0 < monthOf year day := by
  refine Nat.le_findGreatest (by decide) ?_
  simp [daysBeforeMonth]

theorem monthOf_le (year day : ℕ) : monthOf year day ≤ 12 := Nat.findGreatest_le 12

theorem daysBeforeMonth_monthOf (year day : ℕ) : daysBeforeMonth year (monthOf year day) ≤ day := by
  refine Nat.findGreatest_spec (P := fun month => daysBeforeMonth year month ≤ day) (m := 1) (by decide) ?_
  simp [daysBeforeMonth]

theorem monthOf_mono (year : ℕ) {day day' : ℕ} (le : day ≤ day') : monthOf year day ≤ monthOf year day' :=
  Nat.findGreatest_mono (fun _ before => before.trans le) le_rfl

/-- Days of a month. -/
def daysInMonth (year month : ℕ) : ℕ :=
  if month = 12 then 31 else daysBeforeMonth year (month + 1) - daysBeforeMonth year month

/-- A date of the calendar. -/
def IsDate (year month day : ℕ) : Prop :=
  0 < year ∧ 0 < month ∧ month ≤ 12 ∧ 0 < day ∧ day ≤ daysInMonth year month

instance (year month day : ℕ) : Decidable (IsDate year month day) :=
  inferInstanceAs (Decidable (0 < year ∧ 0 < month ∧ month ≤ 12 ∧ 0 < day ∧ day ≤ daysInMonth year month))

theorem daysInMonth_le (year : ℕ) (positive : 0 < month) (small : month ≤ 12) : daysInMonth year month ≤ 31 := by
  simp only [daysInMonth, daysBeforeMonth]
  by_cases leap : IsLeap year
  · simp only [leap, and_true]
    interval_cases month <;> simp
  · simp only [leap, and_false, if_false]
    interval_cases month <;> simp

/-- The day of the month is one of its days. -/
theorem dayOfMonth_lt (year day : ℕ) (inside : day < if IsLeap year then 366 else 365) :
    day - daysBeforeMonth year (monthOf year day) < daysInMonth year (monthOf year day) := by
  have before := daysBeforeMonth_monthOf year day
  have small := monthOf_le year day
  by_cases last : monthOf year day = 12
  · rw [daysInMonth, if_pos last]
    rw [last] at before ⊢
    by_cases leap : IsLeap year
    · simp [daysBeforeMonth, leap] at inside before ⊢
      omega
    · simp [daysBeforeMonth, leap] at inside before ⊢
      omega
  · rw [daysInMonth, if_neg last]
    have next : day < daysBeforeMonth year (monthOf year day + 1) := by
      by_contra reached
      have greatest := Nat.le_findGreatest (P := fun month => daysBeforeMonth year month ≤ day)
        (by omega : monthOf year day + 1 ≤ 12) (not_lt.mp reached)
      have same : Nat.findGreatest (fun month => daysBeforeMonth year month ≤ day) 12 = monthOf year day := rfl
      omega
    omega

/-- Every day of a month is a day of the year. -/
theorem dayOfYear_le {day : ℕ} (date : IsDate year month day) :
    daysBeforeMonth year month + day ≤ if IsLeap year then 366 else 365 := by
  obtain ⟨_, positive, small, _, upTo⟩ := date
  simp only [daysInMonth, daysBeforeMonth] at upTo ⊢
  by_cases leap : IsLeap year
  · simp only [leap, and_true, if_true] at upTo ⊢
    interval_cases month <;> simp at upTo ⊢ <;> omega
  · simp only [leap, and_false, if_false] at upTo ⊢
    interval_cases month <;> simp at upTo ⊢ <;> omega

/-! ## Fields -/

/-- Year, month and day of the month. -/
def dateFields (days : ℕ) : List ℕ :=
  let year := yearOf days
  let day := days - daysBeforeYear year
  [year, monthOf year day, day - daysBeforeMonth year (monthOf year day) + 1]

/-- Hour, minute, second and microsecond. -/
def timeFields (micros : ℕ) : List ℕ :=
  [micros / 3600000000, micros / 60000000 % 60, micros / 1000000 % 60, micros % 1000000]

/-- A count of microseconds since 0001-01-01T00:00. -/
def fields (micros : ℕ) : List ℕ := dateFields (micros / 86400000000) ++ timeFields (micros % 86400000000)

/-- The count of whole seconds that date and time spell. -/
def seconds (year month day hour minute second : ℕ) : ℕ :=
  (daysBeforeYear year + daysBeforeMonth year month + (day - 1)) * 86400 + hour * 3600 + minute * 60 + second

/-- Midnight is a whole number of days. -/
theorem seconds_midnight (year month day : ℕ) : seconds year month day 0 0 0 =
    (daysBeforeYear year + daysBeforeMonth year month + (day - 1)) * 86400 := by
  simp only [seconds, Nat.zero_mul, Nat.add_zero]

/-- A time of a day before the end of a year. -/
theorem seconds_lt {day hour minute second : ℕ} (date : IsDate year month day) (before : year < n)
    (time : hour < 24 ∧ minute < 60 ∧ second < 60) :
    seconds year month day hour minute second < daysBeforeYear n * 86400 := by
  have ofYear := dayOfYear_le date
  have later := daysBeforeYear_mono (Nat.succ_le_of_lt before)
  rw [Nat.succ_eq_add_one, daysBeforeYear_succ date.1] at later
  have first := date.2.2.2.1
  have whole : daysBeforeYear year + daysBeforeMonth year month + (day - 1) + 1 ≤ daysBeforeYear n := by omega
  unfold seconds
  omega

theorem fields_eq (micros : ℕ) :
    ∃ year month day hour minute second micro, fields micros = [year, month, day, hour, minute, second, micro] ∧
      seconds year month day hour minute second * 1000000 + micro = micros ∧
      IsDate year month day ∧ hour < 24 ∧ minute < 60 ∧ second < 60 ∧ micro < 1000000 := by
  have year := daysBeforeYear_yearOf (micros / 86400000000)
  have positive := monthOf_pos (yearOf (micros / 86400000000))
    (micros / 86400000000 - daysBeforeYear (yearOf (micros / 86400000000)))
  have small := monthOf_le (yearOf (micros / 86400000000))
    (micros / 86400000000 - daysBeforeYear (yearOf (micros / 86400000000)))
  have beyond := lt_daysBeforeYear (micros / 86400000000)
  rw [daysBeforeYear_succ (yearOf_pos _)] at beyond
  have day := dayOfMonth_lt (yearOf (micros / 86400000000))
    (micros / 86400000000 - daysBeforeYear (yearOf (micros / 86400000000))) (by omega)
  refine ⟨_, _, _, _, _, _, _, rfl, ?_, ⟨yearOf_pos _, positive, small, Nat.succ_pos _, day⟩, ?_⟩
  swap
  · omega
  have month := daysBeforeMonth_monthOf (yearOf (micros / 86400000000))
    (micros / 86400000000 - daysBeforeYear (yearOf (micros / 86400000000)))
  unfold seconds
  omega

/-- The fields of a count in the years 1 to 9999. -/
theorem fields_small (micros : ℕ) (inside : micros < daysBeforeYear 10000 * 86400000000) :
    List.Forall₂ (· < ·) (fields micros) [10000, 13, 32, 24, 60, 60, 1000000] := by
  have first := daysBeforeYear_yearOf (micros / 86400000000)
  have year : yearOf (micros / 86400000000) < 10000 := by
    by_contra late
    have after := daysBeforeYear_mono (not_lt.mp late)
    omega
  obtain ⟨_, _, _, _, _, _, _, fields, _, date, time⟩ := fields_eq micros
  have same : (Calendar.fields micros).head? = some (yearOf (micros / 86400000000)) := rfl
  rw [fields] at same ⊢
  have month := daysInMonth_le (yearOf (micros / 86400000000)) date.2.1 date.2.2.1
  rw [← Option.some.inj same] at year month
  simp only [List.forall₂_cons, List.Forall₂.nil, and_true]
  unfold IsDate at date
  omega

theorem dateFields_lt (less : days < days') : dateFields days < dateFields days' := by
  have before := daysBeforeYear_yearOf days
  have before' := daysBeforeYear_yearOf days'
  simp only [dateFields, List.cons_lt_cons_iff]
  rcases Nat.lt_or_eq_of_le (yearOf_mono less.le) with year | year
  · exact .inl year
  refine .inr ⟨year, ?_⟩
  rw [← year] at before' ⊢
  have day : days - daysBeforeYear (yearOf days) < days' - daysBeforeYear (yearOf days) := by omega
  have first := daysBeforeMonth_monthOf (yearOf days) (days - daysBeforeYear (yearOf days))
  rcases Nat.lt_or_eq_of_le (monthOf_mono (yearOf days) day.le) with month | month
  · exact .inl month
  · refine .inr ⟨month, .inl ?_⟩
    rw [← month]
    omega

theorem timeFields_lt (less : m < n) : timeFields m < timeFields n := by
  simp only [timeFields, List.cons_lt_cons_iff]
  omega

/-- **Later counts have greater fields.** -/
theorem fields_lt (less : m < n) : fields m < fields n := by
  have quotient : m / 86400000000 ≤ n / 86400000000 := Nat.div_le_div_right less.le
  refine FixedWidth.append_lt (by simp [dateFields]) ?_
  rcases Nat.lt_or_eq_of_le quotient with days | days
  · exact .inl (dateFields_lt days)
  · refine .inr ⟨by rw [days], timeFields_lt ?_⟩
    omega

end Calendar
